import RpcReference.Proofs.Command.Run
import RpcReference.Proofs.Conversion.ReadBack
import RpcReference.Proofs.Sync.Names
import RpcReference.Proofs.Text.Joined

/-!
# The words of a report

A report is read by people and by scripts, and the names in it come from others.

* `SyncReport.isSuffix_text_iff` — the text ends with the sentence of a good verdict **exactly if
  the verdict is good**, whatever the names are: they stand in the middle of the text.
* `SyncReport.showSame_of_text_eq` — a text whose names have no line breaks tells the counts, the
  sizes of both kinds of names and the names that are listed (`SyncReport.ShowSame`).  A line break
  in a name could look like the end of a line of the report.
* `SyncReport.text_trustworthy` — both, and that a check of a project ends with success exactly if
  the text that it prints ends with that sentence.
-/

set_option autoImplicit false

namespace RpcReference

namespace SyncReport

/-! ## The lines of a report

The text is joined from lines, and each line is made of fixed words with a name or a number between
or behind them.  The definition of the text goes through the cases of both kinds of names and of the
verdict; the equations below take them apart once, and afterwards only lines are looked at. -/

/-- The sentence of a good verdict. -/
def goodVerdict : String := "OpenAPI spec is in sync with Insomnia workspace"

/-- The sentence of a bad verdict. -/
def badVerdict : String := "OpenAPI spec is OUT OF SYNC with Insomnia workspace"

/-- The line about counts that differ. -/
def countLine (report : SyncReport) : String :=
  "   Count mismatch: Expected " ++ toString report.requestCount ++ " paths, found " ++
    toString report.pathCount

/-- The line above the names of a kind. -/
def heading (title : String) (size : Nat) : String := title ++ " (" ++ toString size ++ "):"

/-- The line below the names that are listed, if there are more. -/
def moreLines (size : Nat) : List String :=
  if limit < size then ["   ... and " ++ toString (size - limit) ++ " more"] else []

/-- The lines of the text of a report. -/
def lines (report : SyncReport) : List String :=
  ["=== Validation Results ===",
    "Insomnia requests: " ++ toString report.requestCount,
    "OpenAPI paths: " ++ toString report.pathCount] ++
    (categoryLines "Missing in OpenAPI" report.missing ++
      (categoryLines "Extra in OpenAPI" report.extra ++ report.verdictLines))

theorem text_eq (report : SyncReport) : report.text = String.intercalate "\n" report.lines := by
  rw [text, lines, List.append_assoc, List.append_assoc]

section Category

variable {title : String} {names : NameSet}

theorem categoryLines_of_isEmpty (h : names.isEmpty = true) : categoryLines title names = [] := by
  rw [categoryLines, if_pos h]

theorem categoryLines_of_not_isEmpty (h : names.isEmpty = false) :
    categoryLines title names = "" :: heading title names.size ::
      ((names.toList.take limit).map (fun name => "   - " ++ name) ++ moreLines names.size) := by
  rw [categoryLines, if_neg (by simp [h])]
  simp [heading, moreLines]

end Category

theorem verdictLines_of_isInSync {report : SyncReport} (h : report.isInSync = true) :
    report.verdictLines = [goodVerdict] := by
  rw [verdictLines, if_pos h]
  rfl

theorem verdictLines_of_not_isInSync {report : SyncReport} (h : report.isInSync = false) :
    report.verdictLines = "" :: badVerdict ::
      (if report.requestCount = report.pathCount then [] else [report.countLine]) := by
  rw [verdictLines, if_neg (by simp [h])]
  rfl

/-! ## The end of a text

Names are put into the middle of the text, and whatever they hold, line breaks or the sentence
itself, they stay there.  The last line has no name in it.  It is one of two sentences, of which
neither ends with the other, or it ends with a number. -/

/-- The last line of a report. -/
def lastLine (report : SyncReport) : String :=
  if report.isInSync then goodVerdict
  else if report.requestCount = report.pathCount then badVerdict
  else report.countLine

/-- There is always a last line, and what it is depends on the verdict and on the counts. -/
theorem exists_verdictLines_eq_concat (report : SyncReport) :
    ∃ before, report.verdictLines = before ++ [report.lastLine] := by
  rw [lastLine]
  cases hsync : report.isInSync with
  | true => exact ⟨[], verdictLines_of_isInSync hsync⟩
  | false =>
    rw [verdictLines_of_not_isInSync hsync, if_neg Bool.false_ne_true]
    split
    · exact ⟨[""], rfl⟩
    · exact ⟨["", badVerdict], rfl⟩

/-- The names of a report are not at its end. -/
theorem lastLine_isSuffix_text (report : SyncReport) :
    report.lastLine.toList <:+ report.text.toList := by
  obtain ⟨before, hbefore⟩ := report.exists_verdictLines_eq_concat
  rw [text_eq, lines, hbefore, ← List.append_assoc, ← List.append_assoc, ← List.append_assoc]
  obtain ⟨start, hstart⟩ := Text.exists_intercalate_concat "\n" _ report.lastLine
  exact ⟨start, hstart.symm⟩

theorem pathCount_isSuffix_countLine (report : SyncReport) :
    (toString report.pathCount).toList <:+ report.countLine.toList :=
  ⟨_, String.toList_append.symm⟩

/-- A text that ends with a number does not end with a sentence. -/
theorem not_goodVerdict_isSuffix_of_toString {text : List Char} {n : Nat}
    (h : (toString n).toList <:+ text) : ¬ goodVerdict.toList <:+ text := by
  intro hgood
  have hlast : text.getLast? = some 'e' := by
    obtain ⟨start, rfl⟩ := hgood
    rw [List.getLast?_append]
    rfl
  obtain ⟨start, rfl⟩ := h
  rw [Text.toList_toString, List.getLast?_append,
    List.getLast?_eq_some_getLast Nat.toDigits_ne_nil, Option.some_or, Option.some_inj] at hlast
  have hdigit := Nat.isDigit_of_mem_toDigits (by decide) (by decide)
    (List.getLast_mem (Nat.toDigits_ne_nil (n := n) (b := 10)))
  rw [hlast] at hdigit
  exact absurd hdigit (by decide)

/-- **No name can pretend a good verdict.** -/
theorem isSuffix_text_iff {report : SyncReport} :
    goodVerdict.toList <:+ report.text.toList ↔ report.isInSync = true := by
  have hlast := report.lastLine_isSuffix_text
  rw [lastLine] at hlast
  refine ⟨fun hgood => ?_, fun hsync => by rwa [if_pos hsync] at hlast⟩
  by_contra hsync
  rw [if_neg hsync] at hlast
  split at hlast
  · have hinside : goodVerdict.toList <:+ badVerdict.toList :=
      List.suffix_of_suffix_length_le hgood hlast (by decide)
    exact absurd hinside (by decide)
  · have hnumber := report.pathCount_isSuffix_countLine.trans hlast
    exact not_goodVerdict_isSuffix_of_toString hnumber hgood

/-- The verdict is good exactly if the report is in sync. -/
theorem exists_verdict_eq_ok_iff {report : SyncReport} :
    (∃ r, report.verdict = .ok r) ↔ report.isInSync = true := by
  rw [verdict]
  split
  · next hsync => simp [hsync]
  · next hsync => simp [hsync]

/-! ## What a text tells

To read a report off its lines it has to be known where each part ends.  The counts stand first.
Then come the two kinds of names, and each may be left out: whether it is there is told by the line
after the empty one, which starts with another letter for each kind and for the verdict
(`SecondLineAvoids`).  A kind that is there starts with its size, and that tells how many lines of
names follow.  So no line that holds a name is ever compared with anything but a line that holds a
name. -/

/-- Lines the second of which does not start with a character. -/
def SecondLineAvoids (c : Char) (rest : List String) : Prop :=
  ∀ first second more, rest = first :: second :: more → second.toList.head? ≠ some c

theorem head?_heading {title : String} {c : Char} (hc : title.toList.head? = some c) (size : Nat) :
    (heading title size).toList.head? = some c := by
  rw [heading, String.toList_append, String.toList_append, String.toList_append, List.append_assoc,
    List.append_assoc, List.head?_append, hc, Option.some_or]

theorem heading_injective (title : String) : Function.Injective (heading title) := by
  intro m n h
  rw [heading, heading, String.append_left_inj, String.append_right_inj] at h
  exact Text.toString_injective h

section Categories

variable {title : String} {c : Char} {names names' : NameSet} {rest rest' : List String}

/-- The title of a kind starts with a letter of its own. -/
theorem secondLineAvoids_categoryLines {d : Char} (hc : title.toList.head? = some c) (hne : c ≠ d)
    (hrest : SecondLineAvoids d rest) : SecondLineAvoids d (categoryLines title names ++ rest) := by
  cases hempty : names.isEmpty with
  | true => rwa [categoryLines_of_isEmpty hempty, List.nil_append]
  | false =>
    rw [categoryLines_of_not_isEmpty hempty]
    rintro first second more heq
    obtain ⟨-, heq⟩ := List.cons.inj heq
    obtain ⟨rfl, -⟩ := List.cons.inj heq
    rw [head?_heading hc]
    exact fun h => hne (Option.some_inj.1 h)

/-- The lines of a kind of names show that there are some. -/
theorem not_secondLineAvoids_categoryLines (hc : title.toList.head? = some c)
    (h : names.isEmpty = false) : ¬ SecondLineAvoids c (categoryLines title names ++ rest) := by
  intro havoids
  rw [categoryLines_of_not_isEmpty h] at havoids
  exact havoids _ _ _ rfl (head?_heading hc _)

/-- **One kind of names can be read off the lines that start with it**: its heading tells how many
lines of names follow, so nothing depends on what stands in them. -/
theorem categoryLines_append_inj (hc : title.toList.head? = some c) (hrest : SecondLineAvoids c rest)
    (hrest' : SecondLineAvoids c rest')
    (h : categoryLines title names ++ rest = categoryLines title names' ++ rest') :
    names.size = names'.size ∧ names.toList.take limit = names'.toList.take limit ∧ rest = rest' := by
  cases hempty : names.isEmpty with
  | true =>
    rw [categoryLines_of_isEmpty hempty, List.nil_append] at h
    cases hempty' : names'.isEmpty with
    | true =>
      rw [categoryLines_of_isEmpty hempty', List.nil_append] at h
      rw [NameSet.size, NameSet.size, List.isEmpty_iff.1 hempty, List.isEmpty_iff.1 hempty']
      exact ⟨rfl, rfl, h⟩
    | false => exact absurd (h ▸ hrest) (not_secondLineAvoids_categoryLines hc hempty')
  | false =>
    cases hempty' : names'.isEmpty with
    | true =>
      rw [categoryLines_of_isEmpty hempty', List.nil_append] at h
      exact absurd (h ▸ hrest') (not_secondLineAvoids_categoryLines hc hempty)
    | false =>
      rw [categoryLines_of_not_isEmpty hempty, categoryLines_of_not_isEmpty hempty',
        List.cons_append, List.cons_append, List.cons_append, List.cons_append] at h
      obtain ⟨-, h⟩ := List.cons.inj h
      obtain ⟨hheading, h⟩ := List.cons.inj h
      have hsize : names.size = names'.size := heading_injective title hheading
      rw [hsize, List.append_assoc, List.append_assoc] at h
      -- the sizes are equal, so there are as many lines of names in both
      have hlength : ((names.toList.take limit).map fun name => "   - " ++ name).length =
          ((names'.toList.take limit).map fun name => "   - " ++ name).length := by
        rw [List.length_map, List.length_map, List.length_take, List.length_take]
        exact congrArg _ hsize
      obtain ⟨hnames, h⟩ := List.append_inj h hlength
      refine ⟨hsize, ?_, List.append_cancel_left h⟩
      exact List.map_injective_iff.2 (fun _ _ => (String.append_right_inj "   - ").1) hnames

end Categories

/-- A bad verdict starts with an empty line and another letter, and a good one is a single line. -/
theorem secondLineAvoids_verdictLines {c : Char} (hc : c ≠ 'O') (report : SyncReport) :
    SecondLineAvoids c report.verdictLines := by
  cases hsync : report.isInSync with
  | true =>
    rw [verdictLines_of_isInSync hsync]
    intro first second more heq
    cases heq
  | false =>
    rw [verdictLines_of_not_isInSync hsync]
    intro first second more heq
    obtain ⟨-, heq⟩ := List.cons.inj heq
    obtain ⟨rfl, -⟩ := List.cons.inj heq
    exact fun h => hc (Option.some_inj.1 h).symm

/-- **Reports that tell the same**: counts, sizes, and the names that are listed, which are the
first ones in the order of their code points. -/
structure ShowSame (report report' : SyncReport) : Prop where
  /-- As many requests. -/
  requestCount : report.requestCount = report'.requestCount
  /-- As many paths. -/
  pathCount : report.pathCount = report'.pathCount
  /-- As many names without a path. -/
  missing : report.missing.size = report'.missing.size
  /-- As many paths without a request. -/
  extra : report.extra.size = report'.extra.size
  /-- The same first five names without a path, or the same names if there are fewer. -/
  firstMissing : report.missing.toList.take 5 = report'.missing.toList.take 5
  /-- The same first five names of paths without a request. -/
  firstExtra : report.extra.toList.take 5 = report'.extra.toList.take 5

/-- Reports with the same lines tell the same. -/
theorem showSame_of_lines_eq {report report' : SyncReport} (h : report.lines = report'.lines) :
    ShowSame report report' := by
  rw [lines, lines] at h
  obtain ⟨hfirst, h⟩ := List.append_inj h rfl
  obtain ⟨-, hfirst⟩ := List.cons.inj hfirst
  obtain ⟨hrequests, hfirst⟩ := List.cons.inj hfirst
  obtain ⟨hpaths, -⟩ := List.cons.inj hfirst
  have hverdict := fun (c : Char) (hc : c ≠ 'O') => secondLineAvoids_verdictLines hc
  have havoids (r : SyncReport) :
      SecondLineAvoids 'M' (categoryLines "Extra in OpenAPI" r.extra ++ r.verdictLines) :=
    secondLineAvoids_categoryLines (c := 'E') rfl (by decide) (hverdict 'M' (by decide) r)
  obtain ⟨hmissing, hfirstMissing, h⟩ :=
    categoryLines_append_inj (c := 'M') rfl (havoids report) (havoids report') h
  obtain ⟨hextra, hfirstExtra, -⟩ := categoryLines_append_inj (c := 'E') rfl
    (hverdict 'E' (by decide) report) (hverdict 'E' (by decide) report') h
  exact ⟨Text.toString_injective ((String.append_right_inj _).1 hrequests),
    Text.toString_injective ((String.append_right_inj _).1 hpaths), hmissing, hextra, hfirstMissing,
    hfirstExtra⟩

/-! ### Lines without line breaks

The lines can be told from the text if no line has a line break, and only names can have one. -/

theorem lineFeed_not_mem_toString (n : Nat) : '\n' ∉ (toString n).toList := by
  rw [Text.toList_toString]
  intro h
  exact absurd (Nat.isDigit_of_mem_toDigits (by decide) (by decide) h) (by decide)

theorem lineFeed_not_mem_append {a b : String} (ha : '\n' ∉ a.toList) (hb : '\n' ∉ b.toList) :
    '\n' ∉ (a ++ b).toList := by
  rw [String.toList_append, List.mem_append]
  exact not_or.2 ⟨ha, hb⟩

/-- Titles and numbers have no line break. -/
theorem lineFeed_not_mem_categoryLines {title : String} {names : NameSet}
    (htitle : '\n' ∉ title.toList) (h : ∀ name ∈ names, '\n' ∉ name.toList) :
    ∀ line ∈ categoryLines title names, '\n' ∉ line.toList := by
  have hnumber := lineFeed_not_mem_toString
  cases hempty : names.isEmpty with
  | true => simp [categoryLines_of_isEmpty hempty]
  | false =>
    rw [categoryLines_of_not_isEmpty hempty]
    intro line hline
    simp only [List.mem_cons, List.mem_append, List.mem_map] at hline
    rcases hline with rfl | rfl | ⟨name, hname, rfl⟩ | hmore
    · decide
    · exact lineFeed_not_mem_append (lineFeed_not_mem_append
        (lineFeed_not_mem_append htitle (by decide)) (hnumber _)) (by decide)
    · exact lineFeed_not_mem_append (by decide) (h name (List.mem_of_mem_take hname))
    · rw [moreLines] at hmore
      split at hmore
      · rw [List.mem_singleton.1 hmore]
        exact lineFeed_not_mem_append (lineFeed_not_mem_append (by decide) (hnumber _)) (by decide)
      · cases hmore

/-- No name of a report has a line break. -/
def HasOneLineNames (report : SyncReport) : Prop :=
  ∀ name ∈ report.missing.toList ++ report.extra.toList, '\n' ∉ name.toList

instance (report : SyncReport) : Decidable report.HasOneLineNames :=
  inferInstanceAs
    (Decidable (∀ name ∈ report.missing.toList ++ report.extra.toList, '\n' ∉ name.toList))

/-- A line of a report has line breaks only if a name has. -/
theorem lineFeed_not_mem_lines {report : SyncReport} (h : report.HasOneLineNames) :
    ∀ line ∈ report.lines, '\n' ∉ line.toList := by
  have hmissing : ∀ name ∈ report.missing, '\n' ∉ name.toList := fun name hname =>
    h name (List.mem_append_left _ hname)
  have hextra : ∀ name ∈ report.extra, '\n' ∉ name.toList := fun name hname =>
    h name (List.mem_append_right _ hname)
  have hnumber := lineFeed_not_mem_toString
  intro line hline
  simp only [lines, List.mem_append, List.mem_cons, List.not_mem_nil, or_false] at hline
  rcases hline with (rfl | rfl | rfl) | hline | hline | hline
  · decide
  · exact lineFeed_not_mem_append (by decide) (hnumber _)
  · exact lineFeed_not_mem_append (by decide) (hnumber _)
  · exact lineFeed_not_mem_categoryLines (by decide) hmissing line hline
  · exact lineFeed_not_mem_categoryLines (by decide) hextra line hline
  cases hsync : report.isInSync with
  | true =>
    rw [verdictLines_of_isInSync hsync, List.mem_singleton] at hline
    rw [hline]
    decide
  | false =>
    rw [verdictLines_of_not_isInSync hsync] at hline
    split at hline <;> simp only [List.mem_cons, List.not_mem_nil, or_false] at hline
    · rcases hline with rfl | rfl <;> decide
    · rcases hline with rfl | rfl | rfl
      · decide
      · decide
      · exact lineFeed_not_mem_append (lineFeed_not_mem_append
          (lineFeed_not_mem_append (by decide) (hnumber _)) (by decide)) (hnumber _)

/-- **A text tells what is in its report**, if no name has a line break. -/
theorem showSame_of_text_eq {report report' : SyncReport} (hnames : report.HasOneLineNames)
    (hnames' : report'.HasOneLineNames) (h : report.text = report'.text) :
    ShowSame report report' := by
  rw [text_eq, text_eq] at h
  exact showSame_of_lines_eq (Text.eq_of_intercalate_eq rfl (List.cons_ne_nil _ _)
    (List.cons_ne_nil _ _) (lineFeed_not_mem_lines hnames) (lineFeed_not_mem_lines hnames') h)

/-! ## Checking a project

A run that checks a project prints the text of the report and ends with an exit code.  Both come
from the same report, so whoever sees one of them knows what the other says. -/

theorem head?_lines_ofResult (report : SyncReport) (result : Except Failure (List String)) :
    (Outcome.ofResult (checkLines report) result).lines.head? = some report.text := by
  cases result <;> rfl

/-- **A report can be trusted.**  Its text ends with the sentence of a good verdict exactly if the
verdict is good, whatever the names are; a check of a project prints the text first, and ends with
success exactly if there is a report with that sentence at the end.  Two texts without line breaks
in their names are equal only if the reports tell the same. -/
theorem text_trustworthy :
    (∀ report : SyncReport,
      goodVerdict.toList <:+ report.text.toList ↔ ∃ r, report.verdict = .ok r) ∧
    (∀ (tree : FileTree) (environment : Environment) (arguments : List String) (project : Project),
      Invocation.parse? environment arguments = some (.validate project) →
      ∀ outcome after,
        (runCommand environment arguments : StateM FileTree Outcome) tree = (outcome, after) →
        (outcome.exitCode = 0 ↔ ∃ report,
          tree.run (checkFiles project.inputPath project.outputPath) = (.ok report, tree) ∧
          goodVerdict.toList <:+ report.text.toList) ∧
        ∀ report, tree.run (checkFiles project.inputPath project.outputPath) = (.ok report, tree) →
          outcome.lines.head? = some report.text ∧
          (outcome.exitCode = 0 ↔ ∃ r, report.verdict = .ok r)) ∧
    (∀ report report' : SyncReport, report.HasOneLineNames → report'.HasOneLineNames →
      report.text = report'.text → ShowSame report report') := by
  refine ⟨fun report => isSuffix_text_iff.trans exists_verdict_eq_ok_iff.symm, ?_, ?_⟩
  · intro tree environment arguments project hparse outcome after hrun
    have hvalidate : (runValidate project : StateM FileTree Outcome) tree = (outcome, after) := by
      rwa [runCommand, hparse] at hrun
    refine ⟨?_, fun report hreport => ?_⟩
    · have hexit : outcome.exitCode = 0 ↔ ∃ report,
          tree.run (checkFiles project.inputPath project.outputPath) = (.ok report, tree) ∧
          ∃ r, report.verdict = .ok r := by
        rw [← FileTree.exitCode_runValidate_eq_zero_iff, hvalidate]
      simpa only [isSuffix_text_iff, exists_verdict_eq_ok_iff] using hexit
    · rw [FileTree.runValidate_eq, hreport] at hvalidate
      obtain ⟨rfl, -⟩ := Prod.mk.inj hvalidate
      exact ⟨head?_lines_ofResult report _, FileTree.exitCode_ofResult_eq_zero_iff report⟩
  · exact fun report report' h h' heq => showSame_of_text_eq h h' heq

/-! ## Two projects

One is in sync, with nothing in it, and one is not.  The names that are not listed are those after
the fifth, and there two reports may differ without their texts. -/

/-- A report with six missing names, of which five are listed. -/
def longReport (last : String) : SyncReport := compare ["a", "b", "c", "d", "e", last] []

/-- A check of two files in the working directory. -/
def checkArguments : List String := ["validate", "--input", "w.json", "--output", "o.json"]

/-- A workspace beside a reference without paths. -/
def besideEmptyReference (workspace : String) : FileTree := .ofInputAndOutput workspace "\x7b\x7d"

/-- A reference without paths has no names, so all those of the requests are missing. -/
theorem run_checkFiles_besideEmptyReference {text : String} {w : Workspace}
    (h : Workspace.parse .json text = .ok w) :
    (besideEmptyReference text).run (checkFiles "./w.json" "./o.json") =
      (.ok (compare w.requestNames []), besideEmptyReference text) := by
  have hinput : (besideEmptyReference text).document "./w.json" = .ok text := by rfl
  have houtput : (besideEmptyReference text).document "./o.json" = .ok "\x7b\x7d" := by rfl
  have hinputFormat : DocumentFormat.ofPath "./w.json" = .json := by rfl
  have houtputFormat : DocumentFormat.ofPath "./o.json" = .json := by rfl
  have hreference : DocumentFormat.parse .json "\x7b\x7d" = .ok (.object []) := by cbv
  rw [FileTree.run_checkFiles, hinput, houtput, hinputFormat, houtputFormat]
  simp only [Except.bind, h, hreference]
  rfl

/-- A workspace without requests. -/
def emptyWorkspace : String := "\x7b\"resources\": []\x7d"

/-- A workspace with one request. -/
def smallWorkspace : String :=
  "\x7b\"resources\": [\x7b\"_type\": \"request\", \"name\": \"a\"\x7d]\x7d"

/-- A name that is not listed makes no difference to the text.  A check of a project that is in sync
ends with success; one of a project with a request that has no path ends with the exit code of a
failure, after a text that ends otherwise. -/
theorem text_trustworthy_unlisted :
    (longReport "f").text = (longReport "g").text ∧ longReport "f" ≠ longReport "g" ∧
    ShowSame (longReport "f") (longReport "g") ∧
    Invocation.parse? ⟨none, none⟩ checkArguments = some (.validate ⟨".", "w.json", "o.json"⟩) ∧
    ((runCommand ⟨none, none⟩ checkArguments : StateM FileTree Outcome)
      (besideEmptyReference emptyWorkspace)).1.exitCode = 0 ∧
    ¬ goodVerdict.toList <:+ (compare ["a"] []).text.toList ∧
    ((runCommand ⟨none, none⟩ checkArguments : StateM FileTree Outcome)
      (besideEmptyReference smallWorkspace)).1.lines.head? = some (compare ["a"] []).text ∧
    ((runCommand ⟨none, none⟩ checkArguments : StateM FileTree Outcome)
      (besideEmptyReference smallWorkspace)).1.exitCode = 1 := by
  obtain ⟨hgood, hrun, hsame⟩ := text_trustworthy
  have htext : (longReport "f").text = (longReport "g").text := by decide +kernel
  have hparse : Invocation.parse? ⟨none, none⟩ checkArguments =
    some (.validate ⟨".", "w.json", "o.json"⟩) := by decide
  have hempty : Workspace.parse .json emptyWorkspace = .ok ⟨[]⟩ := by decide +kernel
  have hsmall : Workspace.parse .json smallWorkspace =
      .ok ⟨[⟨"", .request, none, "a", none, none⟩]⟩ := by decide +kernel
  have hinSync := (hrun _ _ _ _ hparse _ _ Prod.mk.eta.symm).2 _
    (run_checkFiles_besideEmptyReference hempty)
  have houtOfSync := (hrun _ _ _ _ hparse _ _ Prod.mk.eta.symm).2 _
    (run_checkFiles_besideEmptyReference hsmall)
  have hbad : ¬ ∃ r, (compare ["a"] []).verdict = .ok r := by
    rintro ⟨r, hr⟩
    cases hr
  refine ⟨htext, by decide, hsame _ _ (by decide) (by decide) htext, hparse,
    hinSync.2.2 ⟨_, rfl⟩, fun hsuffix => hbad ((hgood _).1 hsuffix), houtOfSync.1, ?_⟩
  have hle := FileTree.exitCode_runValidate_le_one (besideEmptyReference smallWorkspace)
    ⟨".", "w.json", "o.json"⟩
  have hne := mt houtOfSync.2.1 hbad
  rw [runCommand, hparse] at hne ⊢
  exact Nat.le_antisymm hle (Nat.pos_of_ne_zero hne)

end SyncReport
end RpcReference
