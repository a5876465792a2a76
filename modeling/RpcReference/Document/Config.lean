import RpcReference.Table

/-!
# Configuration

Everything in the reference that does not come from the workspace: version, `info`, `servers` and
the descriptions of well-known namespaces.  Every field has a default, so a configuration file lists
only what it changes.

* `Config.default` — the configuration without a file.
* `Config.describeNamespaces` — **given descriptions are put into the built-in table**: a known
  namespace keeps its place and takes the given text, a new one goes to the end.
-/

set_option autoImplicit false

namespace RpcReference

/-- A name with a link, as contact and license are given. -/
structure NamedLink where
  /-- The name. -/
  name : String
  /-- The link. -/
  url : String
deriving DecidableEq, Repr

/-- A server on which the methods can be called. -/
structure Server where
  /-- Its address. -/
  url : String
  /-- What it is for. -/
  description : String
deriving DecidableEq, Repr

/-- What a reference says besides the methods of the workspace. -/
structure Config where
  /-- The version of the description format. -/
  openapiVersion : String
  /-- The title. -/
  title : String
  /-- The introduction, in Markdown. -/
  description : String
  /-- The version of the described interface. -/
  version : String
  /-- Whom to ask. -/
  contact : Option NamedLink
  /-- The terms of use. -/
  license : Option NamedLink
  /-- The servers. -/
  servers : List Server
  /-- The descriptions of well-known namespaces. -/
  namespaceDescriptions : Table String String
deriving DecidableEq, Repr

namespace Config

/-- The keys of a configuration file. -/
def keys : List String := ["openapiVersion", "title", "description", "version", "contact", "license",
  "servers", "namespaceDescriptions"]

/-! ## Defaults -/

/-- The introduction, line by line. -/
def introduction : List String := [
  "",
  "# Fukuii JSON-RPC API Reference",
  "",
  "Complete reference for all JSON-RPC endpoints in the Fukuii Ethereum Classic client.",
  "",
  "## Quick Start",
  "",
  "All JSON-RPC methods are called via HTTP POST to the RPC endpoint (default: http://localhost:8546).",
  "",
  "Example request:",
  "```bash",
  "curl -X POST http://localhost:8546 \\",
  "  -H \"Content-Type: application/json\" \\",
  "  -d '\x7b",
  "    \"jsonrpc\": \"2.0\",",
  "    \"id\": 1,",
  "    \"method\": \"eth_blockNumber\",",
  "    \"params\": []",
  "  \x7d'",
  "```",
  "",
  "## Namespaces",
  "",
  "Fukuii organizes methods into namespaces:",
  "",
  "- **ETH**: Core blockchain operations (blocks, transactions, state)",
  "- **WEB3**: Utility methods (hashing, version)",
  "- **NET**: Network and peer information",
  "- **PERSONAL**: Account management (dev/test only)",
  "- **DEBUG**: Debugging and diagnostics",
  "- **QA**: Testing utilities (test networks only)",
  "- **CHECKPOINTING**: ETC checkpointing system",
  "- **FUKUII**: Custom Fukuii extensions",
  "- **TEST**: Test harness methods (test networks only)",
  "- **IELE**: IELE VM support (if enabled)",
  "- **RPC**: RPC metadata",
  "",
  "## Security",
  "",
  "⚠️ **Important**: Only expose `eth`, `web3`, and `net` namespaces in production.",
  "Never expose `personal`, `debug`, `test`, or `qa` namespaces on public networks.",
  "",
  "## Configuration",
  "",
  "Enable/disable namespaces in your configuration:",
  "```hocon",
  "fukuii.network.rpc \x7b",
  "  http \x7b",
  "    enabled = true",
  "    interface = \"127.0.0.1\"",
  "    port = 8546",
  "    apis = \"eth,web3,net\"  # Comma-separated list",
  "  \x7d",
  "\x7d",
  "```",
  ""]

/-- The built-in descriptions of namespaces. -/
def builtInNamespaces : Table String String := [
  ("ETH",
    "Core Ethereum blockchain operations including blocks, transactions, accounts, and smart contracts"),
  ("WEB3", "Utility methods for hashing and client information"),
  ("NET", "Network status and peer connection information"),
  ("PERSONAL", "Account management methods (⚠️ Development/test only)"),
  ("DEBUG", "Debugging and diagnostic methods (⚠️ Use with caution)"),
  ("QA", "Quality assurance and testing utilities (❌ Test networks only)"),
  ("CHECKPOINTING", "ETC checkpointing system for finality"),
  ("FUKUII", "Custom Fukuii-specific extensions"),
  ("TEST", "Test harness methods (❌ Test networks only)"),
  ("IELE", "IELE VM support (if enabled)"),
  ("RPC", "RPC metadata and module information")]

/-- The configuration without a file. -/
def default : Config where
  openapiVersion := "3.0.3"
  title := "Fukuii JSON-RPC API"
  description := String.intercalate "\n" introduction
  version := "1.0.0"
  contact := some ⟨"Chippr Robotics LLC", "https://github.com/chippr-robotics/fukuii"⟩
  license := some ⟨"Apache 2.0", "https://www.apache.org/licenses/LICENSE-2.0.html"⟩
  servers := [
    ⟨"http://localhost:8546", "Local development node"⟩,
    ⟨"http://localhost:8545", "Alternative local port"⟩]
  namespaceDescriptions := builtInNamespaces

/-! ## Namespace descriptions -/

/-- The table of descriptions after the given ones are put into the built-in one. -/
def describeNamespaces (given : Table String String) : Table String String :=
  Table.putAll builtInNamespaces given

end Config
end RpcReference
