import QuantizedConv.CommandLine.Command
import Mathlib.Data.List.Forall2
import Mathlib.Data.List.Nodup
import Mathlib.Data.List.TakeWhile

/-!
# The arguments of a command

A command is spelled by its options and flags in any order, each option with its value attached or
apart, and with a closing `--` or without (`Command.Spelled`). Taking one of them adds it to those
that were given (`parse_written`), and the order in which they were given does not matter
(`value?_perm`), so that a command is found again from each of its spellings
(`ofArguments_of_spelled`).
-/

set_option autoImplicit false

namespace QuantizedConv

namespace Arguments

/-- An argument with two dashes and something behind them is an option. -/
theorem form_of_dashes {argument : String} {body : List Char}
    (h : argument.toList = '-' :: '-' :: body) (hbody : body ≠ []) :
    form argument = splitLong body := by
  unfold form
  rw [h]
  cases body with
  | nil => exact absurd rfl hbody
  | cons c body => rfl

section Names

variable {name : String} (hname : '=' ∉ name.toList)

include hname

/-- No character of the name of an option is an equals sign. -/
theorem not_equals_of_mem : ∀ c ∈ name.toList, decide (c ≠ '=') = true := by
  intro c hc
  rw [decide_eq_true_eq]
  rintro rfl
  exact hname hc

/-- An option with its value attached is read as the name and the value. -/
theorem form_attached (value : String) :
    form ("--" ++ name ++ "=" ++ value) = .long name (some value) := by
  have hlist : ("--" ++ name ++ "=" ++ value).toList =
      '-' :: '-' :: (name.toList ++ '=' :: value.toList) := by simp
  rw [form_of_dashes hlist (by simp), splitLong,
    List.takeWhile_append_of_pos (not_equals_of_mem hname),
    List.dropWhile_append_of_pos (not_equals_of_mem hname)]
  simp

/-- An option alone is read as its name without a value. -/
theorem form_alone (hne : name ≠ "") : form ("--" ++ name) = .long name none := by
  have hlist : ("--" ++ name).toList = '-' :: '-' :: name.toList := by simp
  have htake : name.toList.takeWhile (· ≠ '=') = name.toList :=
    List.takeWhile_eq_self_iff.mpr (not_equals_of_mem hname)
  have hdrop : name.toList.dropWhile (· ≠ '=') = [] :=
    List.dropWhile_eq_nil_iff.mpr (not_equals_of_mem hname)
  rw [form_of_dashes hlist (mt String.toList_eq_nil_iff.mp hne), splitLong, htake, hdrop,
    String.ofList_toList]

end Names

/-- An argument that does not start with a dash, or is nothing but one. -/
def NoDash (argument : String) : Prop := ∀ first rest, argument.toList ≠ '-' :: first :: rest

/-- An argument that does not start with a dash is taken as a value. -/
theorem isValue_of_noDash {argument : String} (h : NoDash argument) : isValue argument = true := by
  unfold isValue form
  rw [decide_eq_true_eq]
  split
  · rename_i heq
    exact absurd heq (h _ _)
  · rename_i heq
    exact absurd heq (h _ _)
  · rename_i heq
    exact absurd heq (h _ _)
  · rfl

/-- The order in which options are given does not matter. -/
theorem value?_perm {given given' : List (String × String)} (h : given.Perm given')
    (hnames : (given.map Prod.fst).Nodup) (name : String) :
    value? given name = value? given' name := by
  unfold value?
  induction h with
  | nil => rfl
  | cons item _ ih =>
    rw [List.map_cons, List.nodup_cons] at hnames
    rw [List.lookup_cons, List.lookup_cons, ih hnames.2]
  | swap item item' rest =>
    have hne : item'.1 ≠ item.1 := by
      rw [List.map_cons, List.map_cons, List.nodup_cons] at hnames
      intro heq
      exact hnames.1 (heq ▸ List.mem_cons_self)
    obtain ⟨key, v⟩ := item
    obtain ⟨key', v'⟩ := item'
    simp only [List.lookup_cons]
    by_cases hkey : name = key
    · have hother : (name == key') = false := by
        rw [beq_eq_false_iff_ne, hkey]
        exact hne.symm
      simp [hother]
    · have hother : (name == key) = false := beq_eq_false_iff_ne.mpr hkey
      simp [hother]
  | trans hfirst _ ih ih' =>
    rw [ih hnames, ih' ((hfirst.map Prod.fst).nodup_iff.mp hnames)]

end Arguments

namespace Command

open Arguments

/-- An option or a flag of the command, and the arguments that give it. -/
inductive Written : String × String → List String → Prop
  | attached {name path : String} (hname : name = "case" ∨ name = "out") (hpath : path ≠ "") :
      Written (name, path) ["--" ++ name ++ "=" ++ path]
  | apart {name path : String} (hname : name = "case" ∨ name = "out") (hpath : path ≠ "")
      (hdash : NoDash path) : Written (name, path) ["--" ++ name, path]
  | flag : Written ("im2col", "") ["--im2col"]

/-- The options and flags of a command. -/
def items (command : Command) : List (String × String) :=
  ("case", command.casePath) ::
    ((command.outPath.map fun path => ("out", path)).toList ++
      match command.lowering with
      | .direct => []
      | .patches => [("im2col", "")])

/-- The arguments of a command: its options and flags in some order, with a closing `--` or
without. -/
def Spelled (command : Command) (arguments : List String) : Prop :=
  ∃ items pieces, items.Perm command.items ∧ List.Forall₂ Written items pieces ∧
    (arguments = pieces.flatten ∨ arguments = pieces.flatten ++ ["--"])

/-- The two options with a value are known, and are not asked for information. -/
theorem find?_specs {name : String} (hname : name = "case" ∨ name = "out") :
    (specs.find? fun spec => spec.name = name) = some ⟨name, some isPath⟩ ∧
      ¬(name = "help" ∨ name = "version") ∧ '=' ∉ name.toList ∧ name ≠ "" := by
  obtain rfl | rfl := hname
  · exact ⟨rfl, by decide, by decide, by decide⟩
  · exact ⟨rfl, by decide, by decide, by decide⟩

/-- Taking one option or flag. -/
theorem parse_written {item : String × String} {texts : List String} (h : Written item texts)
    {given : List (String × String)} (hnew : value? given item.1 = none) (rest : List String) :
    parse specs given (texts ++ rest) = parse specs (given ++ [item]) rest := by
  cases h with
  | attached hname hpath =>
    obtain ⟨hfind, hinformation, hequals, -⟩ := find?_specs hname
    rw [List.singleton_append, parse, form_attached hequals]
    simp only [if_neg hinformation, hfind, hnew]
    simp [isPath, hpath]
  | apart hname hpath hdash =>
    obtain ⟨hfind, hinformation, hequals, hnonempty⟩ := find?_specs hname
    rw [List.cons_append, parse, form_alone hequals hnonempty]
    simp only [if_neg hinformation, hfind, hnew]
    simp [isPath, hpath, isValue_of_noDash hdash]
  | flag =>
    rw [List.singleton_append, parse, show "--im2col" = "--" ++ "im2col" by decide,
      form_alone (by decide) (by decide)]
    simp [specs, hnew]

/-- Taking all options and flags. -/
theorem parse_pieces {items given : List (String × String)} {pieces : List (List String)}
    (h : List.Forall₂ Written items pieces) (hnames : ((given ++ items).map Prod.fst).Nodup)
    (rest : List String) :
    parse specs given (pieces.flatten ++ rest) = parse specs (given ++ items) rest := by
  induction h generalizing given with
  | nil => rw [List.flatten_nil, List.nil_append, List.append_nil]
  | cons hitem hrest ih =>
    rename_i item texts items pieces
    have hnew : value? given item.1 = none := by
      rw [value?, List.lookup_eq_none_iff]
      intro other hother
      rw [bne_iff_ne]
      rw [List.map_append, List.nodup_append] at hnames
      exact (hnames.2.2 other.1 (List.mem_map_of_mem hother) item.1 (by simp)).symm
    rw [List.flatten_cons, List.append_assoc, parse_written hitem hnew, ih (by simpa using hnames)]
    simp

/-- A command gives each option at most once. -/
theorem nodup_items (command : Command) : (command.items.map Prod.fst).Nodup := by
  obtain ⟨casePath, outPath, lowering⟩ := command
  cases outPath <;> cases lowering <;> simp [items]

/-- The options of a command give the command. -/
theorem ofGiven?_items (command : Command) : ofGiven? command.items = some command := by
  obtain ⟨casePath, outPath, lowering⟩ := command
  cases outPath <;> cases lowering <;> rfl

/-- **A command is found again from each of its spellings.** -/
theorem ofArguments_of_spelled {command : Command} {arguments : List String}
    (h : command.Spelled arguments) : ofArguments arguments = .ok command := by
  obtain ⟨items, pieces, hperm, hwritten, harguments⟩ := h
  have hnames : (items.map Prod.fst).Nodup :=
    ((hperm.map Prod.fst).nodup_iff).mpr command.nodup_items
  have hparse : parse specs [] arguments = .proceed items := by
    obtain rfl | rfl := harguments
    · have hall := parse_pieces hwritten (List.nil_append items ▸ hnames) []
      rwa [List.append_nil, List.nil_append] at hall
    · exact parse_pieces hwritten (List.nil_append items ▸ hnames) ["--"]
  have hgiven : ofGiven? items = some command := by
    rw [← command.ofGiven?_items]
    simp only [ofGiven?, value?_perm hperm hnames]
  rw [ofArguments, hparse]
  simp only [hgiven]

end Command

end QuantizedConv
