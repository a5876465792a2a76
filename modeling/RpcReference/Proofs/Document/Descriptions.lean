import RpcReference.Proofs.Conversion.Tags
import RpcReference.Proofs.Files.Commands
import RpcReference.Proofs.Json.Agreement

/-!
# Namespace descriptions

A configuration file may describe namespaces.  **What it gives is put into the built-in table**,
whatever else stands in the file and in whatever form.

* `Config.givenDescriptions` — the descriptions that a text gives, in its order and with its
  repetitions, found in the outline of the text.
* `Config.Merges` — a table that keeps the built-in names first and the last description of each
  name.
* `Config.exists_givenDescriptions_of_ofJson` — the table of a configuration comes from the
  descriptions that its text gives, and from nothing else.
* `Config.get?_of_givenDescriptions` — what a text gives is **what stands in its value**, where the
  text is read as one.
* `Config.namespaceDescriptions_load` — what holds of every configuration that is loaded, up to the
  tags of the workspaces that are converted under it.
-/

set_option autoImplicit false

namespace RpcReference.Config

open Json (Delimits readText readTexts)

/-! ## What a text gives

What a text gives is said without the reader of configurations: the value is looked up in the
outline of the text, and read as texts under keys.  Nothing is merged in this list yet, so a name
that is described twice stands in it twice.

The merging starts from the built-in table and puts one description after the other into it.  Where
a name stands afterwards is a matter of tables (`Table.keys_putAll`), and so is which description it
has. -/

/-- The descriptions of namespaces that a text gives; none if it leaves their key out. -/
def givenDescriptions (text : String) : Reading (Option (Table String String)) :=
  (Json.outline keys text.toList).bind fun members rest =>
    match Table.get? "namespaceDescriptions" members with
    | none => .done none rest
    | some value => (readTexts value).map some

/-- **A table with the built-in descriptions and the given ones.** -/
structure Merges (given merged : Table String String) : Prop where
  /-- The built-in names come first, then the others in the order in which they are given first. -/
  keys_eq : Table.keys merged = Table.keys builtInNamespaces ++
    ((Table.keys given).filter fun name => name ∉ Table.keys builtInNamespaces).eraseDups
  /-- No name is there twice. -/
  nodup_keys : (Table.keys merged).Nodup
  /-- A name has the description that is given last for it, or else the built-in one. -/
  get?_eq : ∀ name, Table.get? name merged =
    (Table.lastOf name given).or (Table.get? name builtInNamespaces)

theorem nodup_keys_builtInNamespaces : (Table.keys builtInNamespaces).Nodup := by decide

theorem merges_describeNamespaces (given : Table String String) :
    Merges given (describeNamespaces given) where
  keys_eq := Table.keys_putAll _ _
  nodup_keys := Table.nodup_keys_putAll given nodup_keys_builtInNamespaces
  get?_eq name := Table.get?_putAll name _ _

/-- **Merging twice is merging once.** -/
theorem describeNamespaces_describeNamespaces (given : Table String String) :
    describeNamespaces (describeNamespaces given) = describeNamespaces given :=
  Table.putAll_putAll given nodup_keys_builtInNamespaces

/-! ## The fields of a configuration

A configuration is read one field after the other, in the order of the text.  For the descriptions
it only matters that the reader of each field stops where the outline says that the value ends, and
that the other fields leave the descriptions alone. -/

theorem delimits_linkShape (title : String) : ∀ key ∈ (linkShape title).keys, ∀ link,
    Delimits ((linkShape title).value key link) := fun _ _ _ =>
  .ite (Json.delimits_readText.map _) (Json.delimits_readText.map _)

theorem delimits_serverShape : ∀ key ∈ serverShape.keys, ∀ server,
    Delimits (serverShape.value key server) := fun _ _ _ =>
  .ite (Json.delimits_readText.map _) (Json.delimits_readText.map _)

/-- Every field is read up to the end of its value. -/
theorem delimits_shape : ∀ key ∈ shape.keys, ∀ config, Delimits (shape.value key config) := by
  intro key _ config
  have hnodup (title : String) : (linkShape title).keys.Nodup := show ["name", "url"].Nodup by decide
  have hlink (title : String) : Delimits (Json.readOptional (Json.readComplete (linkShape title))) :=
    Json.delimits_readOptional (Json.delimits_readComplete (delimits_linkShape title) (hnodup title))
  have hservers : Delimits (Json.readList (Json.readComplete serverShape)) :=
    Json.delimits_readList (Json.delimits_readComplete delimits_serverShape (by decide))
  exact .ite (Json.delimits_readText.map _) <| .ite (Json.delimits_readText.map _) <|
    .ite (Json.delimits_readText.map _) <| .ite (Json.delimits_readText.map _) <|
    .ite ((hlink _).map _) <| .ite ((hlink _).map _) <| .ite (hservers.map _)
    (Json.delimits_readTexts.map _)

/-- Only one field has to do with namespaces. -/
theorem namespaceDescriptions_readField {key : String} {config : Config} {text : List Char}
    (hkey : key ∈ keys) (hne : key ≠ "namespaceDescriptions") :
    (readField key config text).Only fun after =>
      after.namespaceDescriptions = config.namespaceDescriptions := by
  have hothers : key ∈ ["openapiVersion", "title", "description", "version", "contact", "license",
      "servers"] := by
    rw [keys] at hkey
    simpa [hne] using hkey
  rw [readField]
  iterate 7
    split
    · exact (Reading.only_true _).map fun _ _ => rfl
  simp_all

/-- **A configuration is read by the outline of its text.** -/
theorem exists_outline_of_ofJson {text : String} {config : Config} (h : ofJson text = .ok config) :
    ∃ members rest, Json.outline keys text.toList = .done members rest ∧
      shape.Reads [] default members config := by
  obtain ⟨mid, -, hread, -⟩ := Json.exists_read_of_readWhole? h
  obtain ⟨⟨isList, seen, final⟩, hshape, rfl⟩ := Reading.map_eq_done.1 hread
  obtain ⟨members, houtline, hreads⟩ :=
    Json.exists_outline_of_readShape delimits_shape (by decide) hshape
  exact ⟨members, mid, houtline, hreads⟩

/-- **The descriptions of a configuration are those that its text gives, put into the built-in
table.** -/
theorem exists_givenDescriptions_of_ofJson {text : String} {config : Config}
    (h : ofJson text = .ok config) :
    ∃ given rest, givenDescriptions text = .done given rest ∧
      config.namespaceDescriptions = describeNamespaces (given.getD []) := by
  obtain ⟨members, rest, houtline, hreads⟩ := exists_outline_of_ofJson h
  have hothers : ∀ other ∈ shape.keys, other ≠ "namespaceDescriptions" →
      ∀ state value mid rest, shape.value other state value = .done mid rest →
        mid.namespaceDescriptions = state.namespaceDescriptions :=
    fun other hkey hne state value mid rest hvalue =>
      namespaceDescriptions_readField hkey hne mid rest hvalue
  rw [givenDescriptions, houtline, Reading.bind_done]
  cases hget : Table.get? "namespaceDescriptions" members with
  | none => exact ⟨none, rest, rfl, hreads.eq_of_unread hothers (.inr hget)⟩
  | some value =>
    obtain ⟨before, after, last, hvalue, heq⟩ := hreads.exists_read hothers (by decide) hget
    obtain ⟨given, htexts, rfl⟩ := Reading.map_eq_done.1 hvalue
    exact ⟨some given, last, congrArg (Reading.map some) htexts, heq⟩

/-! ## The value of a text

The outline is found without the reader of values, and so are the descriptions.  Where the text is
also read as a value, the two agree: what is given stands in that value. -/

/-- **What a text gives is what its value has under the key of the descriptions**: an object of the
given texts, of a repeated name the last one. -/
theorem get?_of_givenDescriptions {text : String} {config : Config} {members : Table String Json}
    {given : Option (Table String String)} {rest : List Char} (hconfig : ofJson text = .ok config)
    (hparse : Json.parse text = .ok (.object members))
    (hgiven : givenDescriptions text = .done given rest) :
    Table.get? "namespaceDescriptions" members = given.map fun entries =>
      .object (Table.putAll [] (entries.map fun entry => (entry.1, .string entry.2))) := by
  obtain ⟨extents, rest', houtline, hreads⟩ := exists_outline_of_ofJson hconfig
  obtain ⟨values, rfl, haligned⟩ := Json.exists_aligned_of_outline houtline hparse
  have hrel := haligned.rel_lastOf "namespaceDescriptions"
  rw [hreads.lastOf_eq_get? (by decide)] at hrel
  rw [givenDescriptions, houtline, Reading.bind_done] at hgiven
  rw [Table.get?_putAll, Table.get?_nil, Option.or_none]
  generalize Table.get? "namespaceDescriptions" extents = extent? at hrel hgiven
  generalize Table.lastOf "namespaceDescriptions" values = value? at hrel ⊢
  cases hrel with
  | none =>
    cases hgiven
    rfl
  | some hread =>
    obtain ⟨fuel, levels, mid, hread⟩ := hread
    obtain ⟨entries, htexts, rfl⟩ := Reading.map_eq_done.1 hgiven
    rw [Json.eq_object_of_readTexts htexts hread]
    rfl

/-- **The description of a namespace is the text that the value of the file has for it**, or else
the built-in one. -/
theorem get?_namespaceDescriptions_of_parse {text : String} {config : Config}
    {members : Table String Json} (hconfig : ofJson text = .ok config)
    (hparse : Json.parse text = .ok (.object members)) (name : String) :
    Table.get? name config.namespaceDescriptions =
      ((Table.get? "namespaceDescriptions" members).bind fun v => v.textAt? name).or
        (Table.get? name builtInNamespaces) := by
  obtain ⟨given, rest, hgiven, hmerged⟩ := exists_givenDescriptions_of_ofJson hconfig
  rw [hmerged, (merges_describeNamespaces _).get?_eq, get?_of_givenDescriptions hconfig hparse hgiven]
  congr 1
  cases given with
  | none => rfl
  | some entries =>
    have hrel := (Table.aligned_iff_eq_map.2 rfl :
      Table.Aligned (fun s v => v = Json.string s) entries _).rel_lastOf name
    show Table.lastOf name entries = (Table.get? name (Table.putAll [] _)).bind Json.text?
    rw [Table.get?_putAll, Table.get?_nil, Option.or_none]
    generalize Table.lastOf name entries = text? at hrel ⊢
    generalize Table.lastOf name _ = value? at hrel ⊢
    cases hrel with
    | none => rfl
    | some heq =>
      subst heq
      rfl

/-! ## Descriptions of a loaded configuration

Loading reads the file and does nothing else, so what holds of the text holds of the file.  The tags
of a conversion take their descriptions from the table of the configuration, by the name of the
namespace. -/

/-- In the JSON format a configuration is read by its own reader. -/
theorem ofJson_of_parse {text : String} {config : Config} (h : Config.parse .json text = .ok config) :
    ofJson text = .ok config := by
  rw [Config.parse] at h
  cases hof : ofJson text with
  | error error =>
    rw [hof] at h
    cases h
  | ok config' =>
    rw [hof] at h
    cases h
    rfl

/-- **The descriptions of a configuration that is loaded from a JSON file.**  They are the built-in
ones together with those that the text of the file gives, in the order of the table and with the
last description of each name; without the key they are the built-in ones.  Giving them once more
changes nothing, and neither does a file that gives just them.  And whatever workspace is converted,
a tag has the description that is given for its name, or else the built-in one, or else a generated
one. -/
theorem namespaceDescriptions_load {tree after : FileTree} {path : Path} {config : Config}
    (hformat : DocumentFormat.ofPath path = .json)
    (hload : tree.run (Config.load path) = (.ok config, after)) :
    ∃ text given rest,
      tree.document path = .ok text ∧
      givenDescriptions text = .done given rest ∧
      Merges (given.getD []) config.namespaceDescriptions ∧
      (given = none → config.namespaceDescriptions = builtInNamespaces) ∧
      describeNamespaces config.namespaceDescriptions = config.namespaceDescriptions ∧
      (∀ text' config' rest', ofJson text' = .ok config' →
        givenDescriptions text' = .done (some config.namespaceDescriptions) rest' →
        config'.namespaceDescriptions = config.namespaceDescriptions) ∧
      ∀ (w : Workspace), ∀ tag ∈ (w.convert config).tags,
        tag.description = ((Table.lastOf tag.name (given.getD [])).or
          (Table.get? tag.name builtInNamespaces)).getD (tag.name ++ " namespace methods") := by
  obtain ⟨text, hdocument, hparse, -⟩ := FileTree.run_parseDocument_eq_ok.1 hload
  have hjson : ofJson text = .ok config := ofJson_of_parse (hformat ▸ hparse)
  obtain ⟨given, rest, hgiven, hmerged⟩ := exists_givenDescriptions_of_ofJson hjson
  have hidempotent :
      describeNamespaces config.namespaceDescriptions = config.namespaceDescriptions := by
    rw [hmerged, describeNamespaces_describeNamespaces]
  have hmerges : Merges (given.getD []) config.namespaceDescriptions :=
    hmerged ▸ merges_describeNamespaces _
  refine ⟨text, given, rest, hdocument, hgiven, hmerges, ?_, hidempotent, ?_, ?_⟩
  · rintro rfl
    exact hmerged
  · intro text' config' rest' hjson' hgiven'
    obtain ⟨given', rest'', hsame, hmerged'⟩ := exists_givenDescriptions_of_ofJson hjson'
    obtain ⟨rfl, -⟩ := Reading.done.inj (hsame.symm.trans hgiven')
    exact hmerged'.trans hidempotent
  · intro w tag htag
    obtain ⟨r, -, rfl⟩ := Workspace.mem_tags_convert.1 htag
    show (Table.get? _ config.namespaceDescriptions).getD _ = _
    rw [hmerges.get?_eq]
    rfl

/-- A text that describes a namespace twice, beside a number that nobody reads. -/
def repeatedText : String :=
  "\x7b\"limits\": [1e999], \"namespaceDescriptions\": " ++
    "\x7b\"B\": \"1\", \"NET\": \"Peers\", \"A\": \"0\", \"B\": \"2\"\x7d\x7d"

/-- A directory with this text as the configuration. -/
def repeatedTree : FileTree := ⟨.directory [("config.json", .file (some repeatedText))], []⟩

/-- Of the two descriptions the last is used, and the built-in names come before the new one. -/
theorem namespaceDescriptions_load_repeated :
    DocumentFormat.ofPath "config.json" = .json ∧
    ∃ config, repeatedTree.run (Config.load "config.json") = (.ok config, repeatedTree) ∧
      Table.keys config.namespaceDescriptions = Table.keys builtInNamespaces ++ ["B", "A"] ∧
      Table.get? "B" config.namespaceDescriptions = some "2" ∧
      Table.get? "NET" config.namespaceDescriptions = some "Peers" ∧
      ∀ (w : Workspace), ∀ tag ∈ (w.convert config).tags, tag.name = "B" → tag.description = "2" := by
  have hformat : DocumentFormat.ofPath "config.json" = .json := by rfl
  have hdocument : repeatedTree.document "config.json" = .ok repeatedText := by rfl
  have hisOk : (ofJson repeatedText).isOk = true := by decide +kernel
  obtain ⟨config, hconfig⟩ : ∃ config, ofJson repeatedText = .ok config := by
    cases h : ofJson repeatedText with
    | error error => rw [h] at hisOk; cases hisOk
    | ok config => exact ⟨config, rfl⟩
  have hload : repeatedTree.run (Config.load "config.json") = (.ok config, repeatedTree) := by
    rw [FileTree.run_loadConfig, hdocument, hformat, Except.bind, Config.parse, hconfig]
    rfl
  have hgiven : ∃ rest, givenDescriptions repeatedText =
      .done (some [("B", "1"), ("NET", "Peers"), ("A", "0"), ("B", "2")]) rest := ⟨_, by cbv⟩
  obtain ⟨rest, hgiven⟩ := hgiven
  obtain ⟨text, given, rest', htext, hsame, hmerges, -, -, -, htags⟩ :=
    namespaceDescriptions_load hformat hload
  cases hdocument.symm.trans htext
  obtain ⟨rfl, -⟩ := Reading.done.inj (hgiven.symm.trans hsame)
  refine ⟨hformat, config, hload, hmerges.keys_eq.trans (by decide +kernel), ?_, ?_, ?_⟩
  · exact (hmerges.get?_eq "B").trans (by decide)
  · exact (hmerges.get?_eq "NET").trans (by decide)
  · intro w tag htag hname
    rw [htags w tag htag, hname]
    decide

end RpcReference.Config
