import RpcReference.Files.Tree
import RpcReference.Main
import RpcReference.Proofs.Conversion.Effects
import RpcReference.Proofs.Conversion.Growth
import RpcReference.Proofs.Conversion.Leniency
import RpcReference.Proofs.Conversion.OperationIds
import RpcReference.Proofs.Conversion.Payload
import RpcReference.Proofs.Conversion.Reordering
import RpcReference.Proofs.Conversion.Summary
import RpcReference.Proofs.Document.Descriptions
import RpcReference.Proofs.Document.Lossless
import RpcReference.Proofs.Namespace.Climb
import RpcReference.Proofs.Sync.Difference
import RpcReference.Proofs.Sync.Wording
