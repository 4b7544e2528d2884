import QuantizedConv.Proofs.CaseDocuments
import QuantizedConv.Proofs.CommandArguments
import QuantizedConv.Proofs.Places
import Mathlib.Data.Nat.Count

/-!
# What a command leaves behind

A command that has no output stops before it emits anything (`run_of_not_produces`), and one that has
emits the record of its run and then ends as the comparison does (`run_of_produces`). A comparison
succeeds exactly where the expected output is absent or equal (`Case.check_eq_ok_iff`); where lists of
the same length differ, it names the first difference and counts all of them (`Case.check_of_ne`). With
what arguments spell and what writing changes, this says how every command line ends
(`commandLine_faithful`).
-/

set_option autoImplicit false

namespace QuantizedConv

open Document

namespace Case

variable {expected got : List Int32}

/-- The least position at which two lists differ, and their elements there. -/
structure FirstDifference (expected got : List Int32) (index : Nat) (e g : Int32) : Prop where
  expected_eq : expected[index]? = some e
  got_eq : got[index]? = some g
  differ : e ≠ g
  before : ∀ j < index, expected[j]? = got[j]?

/-- The listed differences are the positions at which both lists have elements that differ. -/
theorem mem_differences {e g : Int32} {index : Nat} :
    ((e, g), index) ∈ differences expected got ↔
      expected[index]? = some e ∧ got[index]? = some g ∧ e ≠ g := by
  simp [differences, List.mem_zipIdx_iff_getElem?, List.getElem?_zip_eq_some, and_assoc]

/-- The differences are listed by increasing position. -/
theorem pairwise_differences (expected got : List Int32) :
    ((differences expected got).map Prod.snd).Pairwise (· < ·) := by
  have hindices : ((expected.zip got).zipIdx.map Prod.snd).Pairwise (· < ·) := by
    rw [List.zipIdx_map_snd]
    exact List.pairwise_lt_range'
  rw [List.pairwise_map] at hindices ⊢
  exact hindices.filter _

/-- A position is listed exactly when lists of the same length differ there. -/
theorem mem_positions (h : expected.length = got.length) {j : Nat} :
    j ∈ (differences expected got).map Prod.snd ↔ j < got.length ∧ expected[j]? ≠ got[j]? := by
  constructor
  · intro hmem
    obtain ⟨⟨⟨e, g⟩, index⟩, hdifference, rfl⟩ := List.mem_map.mp hmem
    obtain ⟨he, hg, hne⟩ := mem_differences.mp hdifference
    obtain ⟨hlt, -⟩ := List.getElem?_eq_some_iff.mp hg
    refine ⟨hlt, ?_⟩
    rw [he, hg]
    simpa using hne
  · rintro ⟨hlt, hne⟩
    rw [List.getElem?_eq_getElem (h ▸ hlt), List.getElem?_eq_getElem hlt] at hne
    refine List.mem_map.mpr ⟨((expected[j], got[j]), j), mem_differences.mpr ?_, rfl⟩
    exact ⟨List.getElem?_eq_getElem _, List.getElem?_eq_getElem _, by simpa using hne⟩

/-- As many differences are listed as there are positions at which the lists differ. -/
theorem length_differences (h : expected.length = got.length) :
    (differences expected got).length =
      Nat.count (fun j => expected[j]? ≠ got[j]?) got.length := by
  have hnodup : ((differences expected got).map Prod.snd).Nodup :=
    (pairwise_differences expected got).imp fun hlt => hlt.ne
  rw [Nat.count_eq_card_filter_range, ← List.length_map (f := Prod.snd),
    ← List.toFinset_card_of_nodup hnodup]
  congr 1
  ext j
  rw [List.mem_toFinset, mem_positions h, Finset.mem_filter, Finset.mem_range]

/-- Lists of the same length without differences are equal. -/
theorem differences_eq_nil (h : expected.length = got.length)
    (hnone : differences expected got = []) : expected = got := by
  apply List.ext_getElem?
  intro j
  by_contra hne
  have hlt : j < got.length := by
    by_contra hout
    rw [List.getElem?_eq_none (by omega), List.getElem?_eq_none (by omega)] at hne
    exact hne rfl
  have hmem := (mem_positions h).mpr ⟨hlt, hne⟩
  rw [hnone] at hmem
  exact List.not_mem_nil hmem

/-- Lists of the same length that are not equal are told apart by their first difference. -/
theorem check_of_ne {c : Case} (hexpected : c.expected = some expected)
    (h : expected.length = got.length) (hne : expected ≠ got) :
    ∃ index e g, FirstDifference expected got index e g ∧
      c.check got = .error (.element index e g
        (Nat.count (fun j => expected[j]? ≠ got[j]?) got.length)) := by
  have hpairwise := pairwise_differences expected got
  rw [← length_differences h]
  unfold check
  rw [hexpected]
  simp only [h, ne_eq, not_true_eq_false, if_false]
  split
  · rename_i hnone
    exact absurd (differences_eq_nil h hnone) hne
  · rename_i e g index rest hdifferences
    obtain ⟨he, hg, hdiffer⟩ :=
      mem_differences.mp (hdifferences ▸ List.mem_cons_self (a := ((e, g), index)) (l := rest))
    refine ⟨index, e, g, ⟨he, hg, hdiffer, ?_⟩, rfl⟩
    intro j hj
    by_contra hearlier
    obtain ⟨hlt, -⟩ := List.getElem?_eq_some_iff.mp hg
    have hmem := (mem_positions h).mpr ⟨hj.trans hlt, hearlier⟩
    -- the positions are listed in order, so that none is before the first
    rw [hdifferences, List.map_cons] at hmem hpairwise
    obtain rfl | hrest := List.mem_cons.mp hmem
    · exact lt_irrefl _ hj
    · exact lt_asymm hj (List.rel_of_pairwise_cons hpairwise hrest)

/-- A comparison succeeds exactly where the expected output is absent or equal. -/
theorem check_eq_ok_iff {c : Case} :
    c.check got = .ok () ↔ c.expected = none ∨ c.expected = some got := by
  cases hexpected : c.expected with
  | none => simp [check, hexpected]
  | some expected =>
    by_cases hlength : expected.length = got.length
    · by_cases heq : expected = got
      · subst heq
        have hnone : differences expected expected = [] := by
          rw [← List.length_eq_zero_iff, length_differences rfl, Nat.count_eq_card_filter_range]
          simp
        simp [check, hexpected, hnone]
      · obtain ⟨index, e, g, -, hcheck⟩ := check_of_ne hexpected hlength heq
        simp [hcheck, heq]
    · have hne : expected ≠ got := fun heq => hlength (congrArg List.length heq)
      simp [check, hexpected, hlength, hne]

end Case

namespace Command

variable {command : Command} {files : FileTree} {c : Case} {v : List Int32}

/-- The file of a command can be read, and what it holds is a case. -/
def Loads (command : Command) (files : FileTree) (c : Case) : Prop :=
  ∃ bytes, files.read command.casePath = .ok bytes ∧ Case.ofBytes bytes = .ok c

/-- A command loads its case, and the run of the case gives an output. -/
structure Produces (command : Command) (files : FileTree) (c : Case) (v : List Int32) : Prop where
  loads : command.Loads files c
  runs : c.run command.lowering = .ok v

/-- A command produces what its case expects, or anything where it expects nothing. -/
def Passes (command : Command) (files : FileTree) : Prop :=
  ∃ c v, command.Produces files c v ∧ (c.expected = none ∨ c.expected = some v)

/-- The record is emitted once, in the indented form: printed with a line break, and all files are as
they were, or else written to the file that the command names, and nothing is printed. What is emitted
reads back as the record. -/
def Emitted (command : Command) (files : FileTree) (record : CaseRecord) (ending : Ending) : Prop :=
  match command.outPath with
  | none => ending.output = record.toIndentedText ++ "\n" ∧ ending.files = files ∧
      whole CaseRecord.reader (bytesOf ending.output) = .ok record
  | some path => ending.output = "" ∧
      files.Updated path (bytesOf record.toIndentedText) ending.files ∧
      whole CaseRecord.reader (bytesOf record.toIndentedText) = .ok record

/-- A command that loads its case goes on with it. -/
theorem plan_of_loads (h : command.Loads files c) :
    command.plan (files.read command.casePath) = command.planFor c := by
  obtain ⟨bytes, hread, hcase⟩ := h
  simp only [plan, hread, Case.ofFile, hcase]

/-- A command loads at most one case. -/
theorem loads_unique {c' : Case} (h : command.Loads files c) (h' : command.Loads files c') :
    c = c' := by
  obtain ⟨bytes, hread, hcase⟩ := h
  obtain ⟨bytes', hread', hcase'⟩ := h'
  rw [hread] at hread'
  cases hread'
  rw [hcase] at hcase'
  cases hcase'
  rfl

/-- A command that loads no case stops with a failure. -/
theorem plan_of_not_loads (h : ∀ c, ¬command.Loads files c) :
    ∃ report, command.plan (files.read command.casePath) = .stop Ending.failure report := by
  cases hload : Case.ofFile command.casePath (files.read command.casePath) with
  | error problem => exact ⟨_, by rw [plan, hload]⟩
  | ok c =>
    refine absurd ?_ (h c)
    cases hread : files.read command.casePath with
    | error problem =>
      rw [hread] at hload
      cases problem <;> cases hload
    | ok bytes =>
      refine ⟨bytes, hread, ?_⟩
      simp only [hread, Case.ofFile] at hload
      split at hload
      · cases hload
      · rename_i c' hcase
        cases hload
        exact hcase

/-- A printed record, with its line break, is read back as the record. -/
theorem readsBack_printed (record : CaseRecord) :
    whole CaseRecord.reader (bytesOf (record.toIndentedText ++ "\n")) = .ok record := by
  have hbreak : Blank (bytesOf "\n") := blank_newLine 0
  rw [bytesOf_append]
  exact record.spells_indented.whole blank_nil hbreak

/-- A command whose run gives an output emits the record of the run, and ends as the comparison
does. -/
theorem run_of_produces (h : command.Produces files c v)
    (hwritable : ∀ path, command.outPath = some path → files.Writable path) :
    command.Emitted files ⟨c.outputShape, v⟩ (command.run files) ∧
      (command.run files).status = (verdictEnding (c.check v)).1 ∧
      (command.run files).report = (verdictEnding (c.check v)).2 := by
  have hplan : command.plan (files.read command.casePath) =
      .emit ⟨c.outputShape, v⟩ (c.check v) := by
    rw [plan_of_loads h.loads, planFor, h.runs]
  unfold run Emitted
  rw [hplan]
  cases hout : command.outPath with
  | none => exact ⟨⟨rfl, rfl, readsBack_printed _⟩, rfl, rfl⟩
  | some path =>
    obtain ⟨written, hwrite⟩ := (hwritable path hout).write
      (bytesOf (CaseRecord.mk c.outputShape v).toIndentedText)
    simp only [hwrite, true_and]
    exact ⟨⟨FileTree.write_updates hwrite, (CaseRecord.spells_indented _).whole_eq⟩, trivial⟩

/-- A command that fails before it has an output emits nothing. -/
theorem run_of_not_produces (h : ¬∃ c v, command.Produces files c v)
    (hruns : ∀ c fault, command.Loads files c →
      c.run command.lowering ≠ .error (.faulted fault)) :
    ∃ report, command.run files = ⟨Ending.failure, "", report, files⟩ := by
  have hplan : ∃ report,
      command.plan (files.read command.casePath) = .stop Ending.failure report := by
    by_cases hloads : ∃ c, command.Loads files c
    · obtain ⟨c, hloads⟩ := hloads
      rw [plan_of_loads hloads, planFor]
      cases hrun : c.run command.lowering with
      | ok v => exact absurd ⟨c, v, hloads, hrun⟩ h
      | error failure =>
        cases failure with
        | faulted fault => exact absurd hrun (hruns c fault hloads)
        | refused refusal => exact ⟨_, rfl⟩
    · exact plan_of_not_loads (not_exists.mp hloads)
  obtain ⟨report, hplan⟩ := hplan
  exact ⟨report, by rw [run, hplan]⟩

/-- **How a command line ends.** The status is `0` where the command produces what its case expects,
and `1` where it does not. Where it produces nothing, nothing is printed and all files are as they
were. Where it does, the record is emitted, whatever the comparison says; and a comparison of lists of
the same length reports their first difference and the number of all differences. -/
theorem commandLine_faithful (command : Command) (arguments : List String) (files : FileTree)
    (harguments : command.Spelled arguments)
    (hwritable : ∀ path, command.outPath = some path → files.Writable path)
    (hruns : ∀ c fault, command.Loads files c →
      c.run command.lowering ≠ .error (.faulted fault)) :
    (command.Passes files → (commandLine arguments files).status = 0) ∧
      (¬command.Passes files → (commandLine arguments files).status = 1) ∧
      ((¬∃ c v, command.Produces files c v) →
        (commandLine arguments files).output = "" ∧ (commandLine arguments files).files = files) ∧
      ∀ c v, command.Produces files c v →
        command.Emitted files ⟨c.outputShape, v⟩ (commandLine arguments files) ∧
          ∀ expected, c.expected = some expected → expected.length = v.length → expected ≠ v →
            ∃ index e g count, Case.FirstDifference expected v index e g ∧
              count = Nat.count (fun j => expected[j]? ≠ v[j]?) v.length ∧
              (commandLine arguments files).report = "Error: " ++
                (s!"output mismatch at index {index}: expected {e.toInt}, got {g.toInt} " ++
                  s!"({count} total)") := by
  have hline : commandLine arguments files = command.run files := by
    rw [commandLine, ofArguments_of_spelled harguments]
  rw [hline]
  refine ⟨?_, ?_, ?_, ?_⟩
  · rintro ⟨c, v, hproduces, hexpected⟩
    obtain ⟨-, hstatus, -⟩ := run_of_produces hproduces hwritable
    rw [hstatus, Case.check_eq_ok_iff.mpr hexpected]
    rfl
  · intro hfails
    by_cases hproduces : ∃ c v, command.Produces files c v
    · obtain ⟨c, v, hproduces⟩ := hproduces
      obtain ⟨-, hstatus, -⟩ := run_of_produces hproduces hwritable
      cases hcheck : c.check v with
      | ok _ => exact absurd ⟨c, v, hproduces, Case.check_eq_ok_iff.mp hcheck⟩ hfails
      | error mismatch =>
        rw [hstatus, hcheck]
        rfl
    · obtain ⟨report, hrun⟩ := run_of_not_produces hproduces hruns
      rw [hrun]
      rfl
  · intro hproduces
    obtain ⟨report, hrun⟩ := run_of_not_produces hproduces hruns
    rw [hrun]
    exact ⟨rfl, rfl⟩
  · intro c v hproduces
    obtain ⟨hemitted, -, hreport⟩ := run_of_produces hproduces hwritable
    refine ⟨hemitted, ?_⟩
    intro expected hexpected hlength hne
    obtain ⟨index, e, g, hfirst, hcheck⟩ := Case.check_of_ne hexpected hlength hne
    refine ⟨index, e, g, _, hfirst, rfl, ?_⟩
    rw [hreport, hcheck]
    rfl

/-- A case that triples its input and expects something else at its last two elements. -/
def triplingCase : Case where
  kind := .conv
  element := .i8
  layer := {}
  depthMultiplier := 1
  inputShape := .nhwc 1 1 3 1
  input := [2, -3, 4]
  filterShape := .nhwc 1 1 1 1
  filter := [3]
  biasShape := none
  bias := none
  outputShape := .nhwc 1 1 3 1
  outputMultiplier := [1]
  outputShift := [0]
  expected := some [6, 9, 13]

/-- A command that writes its record over the file of its case, by another name of that file. -/
def overwritingCommand : Command := ⟨"case.json", some "/home/./case.json", .patches⟩

/-- The file of that case, and another one. -/
def triplingFiles : FileTree :=
  (⟨[("case.json", bytesOf triplingCase.toText), ("notes", [1, 2])]⟩ : Files)

/-- The comparison fails after the record was written over the case: the file is written by its absolute
name and read by its relative one. -/
theorem commandLine_faithful_overwriting :
    (commandLine ["--im2col", "--out=/home/./case.json", "--case", "case.json", "--"]
        triplingFiles).status = 1 ∧
      (commandLine ["--im2col", "--out=/home/./case.json", "--case", "case.json", "--"]
        triplingFiles).files.read "notes" = .ok [1, 2] ∧
      (commandLine ["--im2col", "--out=/home/./case.json", "--case", "case.json", "--"]
        triplingFiles).files.read "case.json" =
          .ok (bytesOf (CaseRecord.toIndentedText ⟨.nhwc 1 1 3 1, [6, -9, 12]⟩)) ∧
      (commandLine ["--im2col", "--out=/home/./case.json", "--case", "case.json", "--"]
        triplingFiles).report =
          "Error: output mismatch at index 1: expected 9, got -9 (2 total)" := by
  have hspelled : overwritingCommand.Spelled
      ["--im2col", "--out=/home/./case.json", "--case", "case.json", "--"] := by
    refine ⟨[("im2col", ""), ("out", "/home/./case.json"), ("case", "case.json")],
      [["--im2col"], ["--" ++ "out" ++ "=" ++ "/home/./case.json"], ["--" ++ "case", "case.json"]],
      by decide, ?_, .inr (by decide)⟩
    have hdash : Arguments.NoDash "case.json" := by
      intro first rest heq
      have hhead : "case.json".toList.head? = some '-' := congrArg List.head? heq
      exact absurd hhead (by decide)
    exact .cons .flag (.cons (.attached (.inr rfl) (by decide))
      (.cons (.apart (.inl rfl) (by decide) hdash) .nil))
  have hloads : overwritingCommand.Loads triplingFiles triplingCase :=
    ⟨_, rfl, triplingCase.spells.whole_eq⟩
  have hproduces : overwritingCommand.Produces triplingFiles triplingCase [6, -9, 12] :=
    ⟨hloads, by decide +kernel⟩
  have hwritable : ∀ path, overwritingCommand.outPath = some path →
      triplingFiles.Writable path := by
    rintro path ⟨⟩
    exact ⟨[], _, rfl⟩
  have hruns : ∀ c fault, overwritingCommand.Loads triplingFiles c →
      c.run overwritingCommand.lowering ≠ .error (.faulted fault) := by
    intro c fault hc hrun
    rw [loads_unique hc hloads, hproduces.runs] at hrun
    cases hrun
  obtain ⟨-, hfails, -, hemits⟩ :=
    commandLine_faithful overwritingCommand _ triplingFiles hspelled hwritable hruns
  obtain ⟨⟨-, hupdated, -⟩, hreports⟩ := hemits _ _ hproduces
  have hreaches : triplingFiles.Reaches "case.json" (["home"] ++ ["case.json"]) :=
    .mk rfl rfl (show ["case.json"] = [] ++ ["case.json"] from rfl) (by decide) (by decide) rfl
  refine ⟨hfails ?_, (hupdated.others "notes" (by decide) _).mpr rfl,
    hupdated.names "case.json" hreaches, ?_⟩
  · rintro ⟨c, v, hother, hexpected⟩
    obtain rfl := loads_unique hother.loads hloads
    have hv := hother.runs
    rw [hproduces.runs] at hv
    cases hv
    exact absurd hexpected (by decide)
  · obtain ⟨index, e, g, count, hfirst, hcount, hreport⟩ :=
      hreports [6, 9, 13] rfl rfl (by decide)
    have hlow : index ≠ 0 := by
      rintro rfl
      cases hfirst.expected_eq
      cases hfirst.got_eq
      exact hfirst.differ rfl
    have hhigh : ¬1 < index := fun hlt => absurd (hfirst.before 1 hlt) (by decide)
    obtain rfl : index = 1 := by omega
    cases hfirst.expected_eq
    cases hfirst.got_eq
    rw [hreport, hcount]
    decide

end Command

end QuantizedConv
