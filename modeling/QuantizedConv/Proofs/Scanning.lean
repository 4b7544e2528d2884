import QuantizedConv.Proofs.Members

/-!
# What a scan takes

A scan keeps the open lists and objects on a stack and takes a step for every item and every end. The
bytes of a value (`Scans`) take it, in as many steps as they need and no more than there are bytes,
from where an item is due to behind that item, with the same frames open. Lists and objects of such
values are again such values.
-/

set_option autoImplicit false

namespace QuantizedConv.Document

/-- Whether that many frames may be open. -/
def ScanRules.Admits (rules : ScanRules) (count : Nat) : Prop :=
  ∀ limit, rules.depthLimit = some limit → count < limit

/-- Rules that admit one more frame do not refuse it. -/
theorem ScanRules.Admits.not_refuses {rules : ScanRules} {stack : List Frame} {depth : Nat}
    (h : rules.Admits (stack.length + (depth + 1))) : rules.refusesFrameOn stack = false := by
  rw [ScanRules.refusesFrameOn]
  cases hlimit : rules.depthLimit with
  | none => rfl
  | some limit =>
    have hlt := h limit hlimit
    simp only [decide_eq_false_iff_not]
    omega

/-- Bytes that take a scan with the frames `opened` to behind an item of the frames `stack`. -/
def Returns (rules : ScanRules) (state : ScanState) (opened : List Frame) (bytes : Bytes)
    (stack : List Frame) : Prop :=
  ∀ rest fuel, Detached rest → bytes.length ≤ fuel.length →
    ∃ left, fuel.length ≤ left.length + bytes.length ∧
      scanSteps rules fuel state opened (bytes ++ rest) = scanSteps rules left .next stack rest

/-- Without any bytes, a scan stays behind the item where it is. -/
theorem Returns.nil (rules : ScanRules) (stack : List Frame) :
    Returns rules .next stack [] stack := by
  intro rest fuel _ _
  exact ⟨fuel, le_rfl, rfl⟩

/-- Bytes that lead behind an item, and bytes that lead on from there, lead on together. -/
theorem Returns.append {rules : ScanRules} {state : ScanState} {opened between stack : List Frame}
    {bytes tail : Bytes} (hfirst : Returns rules state opened bytes between)
    (hsecond : Returns rules .next between tail stack) (htail : ∀ rest, Detached (tail ++ rest)) :
    Returns rules state opened (bytes ++ tail) stack := by
  intro rest fuel hrest hfuel
  rw [List.length_append] at hfuel
  obtain ⟨between, hbetween, hrun⟩ := hfirst (tail ++ rest) fuel (htail rest) (by omega)
  obtain ⟨left, hleft, hrun'⟩ := hsecond rest between hrest (by omega)
  refine ⟨left, ?_, ?_⟩
  · rw [List.length_append]
    omega
  · rw [List.append_assoc, hrun, hrun']

/-- One step, if it takes a byte. -/
theorem Returns.step {rules : ScanRules} {state after : ScanState} {frame : Frame}
    {opened outer stack : List Frame} {bytes : Bytes} (tail : Bytes)
    (hlength : tail.length < bytes.length)
    (hstep : ∀ rest, Detached rest →
      scanStep rules state frame outer (bytes ++ rest) = .ok ((after, opened), tail ++ rest))
    (htail : Returns rules after opened tail stack) :
    Returns rules state (frame :: outer) bytes stack := by
  intro rest fuel hrest hfuel
  cases fuel with
  | nil =>
    rw [List.length_nil] at hfuel
    omega
  | cons b fuel =>
    rw [List.length_cons] at hfuel
    obtain ⟨left, hleft, hrun⟩ := htail rest fuel hrest (by omega)
    refine ⟨left, ?_, ?_⟩
    · rw [List.length_cons]
      omega
    · rw [scanSteps, bind_reads (hstep rest hrest)]
      exact hrun

/-- What `take` does with the bytes of an item that is due in the frames `stack`. -/
def Takes (rules : ScanRules) (take : Reader (ScanState × List Frame)) (stack : List Frame)
    (bytes : Bytes) : Prop :=
  ∃ state opened tail, tail.length < bytes.length ∧ Returns rules state opened tail stack ∧
    ∀ gap rest, Blank gap → Detached rest →
      take (gap ++ (bytes ++ rest)) = .ok ((state, opened), tail ++ rest)

/-- **Bytes that a scan takes as a value**, if `depth` more frames may be open. -/
structure Scans (rules : ScanRules) (depth : Nat) (bytes : Bytes) : Prop where
  starts : Starts bytes
  takes : ∀ stack, rules.Admits (stack.length + depth) →
    Takes rules (scanItem rules stack) stack bytes

/-- Takes the key of an item of a frame, where it has one, and the item. -/
def scanKeyed (rules : ScanRules) (frame : Frame) (stack : List Frame) :
    Reader (ScanState × List Frame) := do
  scanKey rules frame
  scanItem rules (frame :: stack)

/-- Bytes that a scan takes as an item of a frame, with its key. -/
structure ScansKeyed (rules : ScanRules) (frame : Frame) (depth : Nat) (bytes : Bytes) : Prop where
  starts : ∃ b rest, bytes = b :: rest ∧ isBlank b = false ∧ b ≠ frame.closer
  takes : ∀ stack, rules.Admits (stack.length + (depth + 1)) →
    Takes rules (scanKeyed rules frame stack) (frame :: stack) bytes

section Frames

variable {rules : ScanRules} {frame : Frame} {depth : Nat} {items : List Bytes}

/-- The byte that closes a frame is no blank, no comma and no part of a number. -/
theorem closer_facts (frame : Frame) : isBlank frame.closer = false ∧
    continuesNumber frame.closer = false ∧ frame.closer ≠ byte ',' := by
  cases frame <;> decide

/-- The closing byte of a frame closes it, behind any blanks. -/
theorem scanStep_close (rules : ScanRules) (state : ScanState) (frame : Frame)
    (stack : List Frame) {gap : Bytes} (hgap : Blank gap) (rest : Bytes) :
    scanStep rules state frame stack (gap ++ [frame.closer] ++ rest) =
      .ok ((.next, stack), rest) := by
  have hskips : SkipsBlanks (scanStep rules state frame stack) := skipsBlanks_peek.bind _
  rw [List.append_assoc, hskips gap _ hgap, scanStep, List.singleton_append,
    bind_reads (peek_cons (closer_facts frame).1 rest)]
  simp only [if_true]
  rfl

/-- The end of a frame. -/
theorem returns_close (rules : ScanRules) (state : ScanState) (frame : Frame)
    (stack : List Frame) {gap : Bytes} (hgap : Blank gap) :
    Returns rules state (frame :: stack) (gap ++ [frame.closer]) stack := by
  refine .step [] (by simp) (fun rest _ => ?_) (.nil rules stack)
  exact scanStep_close rules state frame stack hgap rest

/-- The items behind another one, and the end of their frame. -/
theorem returns_tail {tail : Bytes} (htail : EnclosedTail frame.closer items tail)
    (hitems : ∀ item ∈ items, ScansKeyed rules frame depth item) {stack : List Frame}
    (hdepth : rules.Admits (stack.length + (depth + 1))) :
    Returns rules .next (frame :: stack) tail stack := by
  obtain ⟨-, hcloser, hcomma⟩ := closer_facts frame
  induction htail with
  | close hgap => exact returns_close rules .next frame stack hgap
  | @item gap gap' item tail items hgap hgap' htail ih =>
    have hrest := ih fun item hitem => hitems item (List.mem_cons_of_mem _ hitem)
    obtain ⟨state, opened, inner, hlength, hreturns, htakes⟩ :=
      (hitems item List.mem_cons_self).takes stack hdepth
    have hdetached := htail.detached hcloser
    refine .step (inner ++ tail) ?_ (fun rest _ => ?_) (hreturns.append hrest hdetached)
    · simp only [List.length_append, List.length_cons]
      omega
    · have hskips : SkipsBlanks (scanStep rules .next frame stack) := skipsBlanks_peek.bind _
      simp only [List.append_assoc, List.cons_append]
      rw [hskips gap _ hgap, scanStep, bind_reads (peek_cons (by decide) _)]
      simp only [if_neg hcomma.symm, if_true]
      rw [bind_reads (advance_cons _ _)]
      exact htakes gap' (tail ++ rest) hgap' (hdetached rest)

/-- The items of a frame that was opened, and its end. -/
theorem returns_body {body : Bytes} (hbody : Enclosed frame.closer items body)
    (hitems : ∀ item ∈ items, ScansKeyed rules frame depth item) {stack : List Frame}
    (hdepth : rules.Admits (stack.length + (depth + 1))) :
    Returns rules .first (frame :: stack) body stack := by
  cases hbody with
  | empty hgap => exact returns_close rules .first frame stack hgap
  | @items gap item tail items hgap htail =>
    have hrest := returns_tail htail (fun item hitem => hitems item (List.mem_cons_of_mem _ hitem))
      hdepth
    have hitem := hitems item List.mem_cons_self
    obtain ⟨state, opened, inner, hlength, hreturns, htakes⟩ := hitem.takes stack hdepth
    obtain ⟨b, front, hfront, hblank, hcloser⟩ := hitem.starts
    have hdetached := htail.detached (closer_facts frame).2.1
    refine .step (inner ++ tail) ?_ (fun rest _ => ?_) (hreturns.append hrest hdetached)
    · simp only [List.length_append]
      omega
    · have hskips : SkipsBlanks (scanStep rules .first frame stack) := skipsBlanks_peek.bind _
      have hrun := htakes [] (tail ++ rest) blank_nil (hdetached rest)
      simp only [List.append_assoc]
      rw [List.nil_append, hfront, List.cons_append] at hrun
      rw [hskips gap _ hgap, scanStep, hfront, List.cons_append, bind_reads (peek_cons hblank _)]
      simp only [if_neg hcloser, reduceCtorEq, if_false]
      exact hrun

/-- **A frame of items that a scan takes is a value that it takes.** -/
theorem scans_frame {opener : UInt8} {body : Bytes} (hopener : frameOf? opener = some frame)
    (hstarts : StartsItem opener) (hbody : Enclosed frame.closer items body)
    (hitems : ∀ item ∈ items, ScansKeyed rules frame depth item) :
    Scans rules (depth + 1) (opener :: body) := by
  refine ⟨⟨opener, body, rfl, hstarts⟩, fun stack hdepth => ?_⟩
  refine ⟨.first, frame :: stack, body, by simp, returns_body hbody hitems hdepth, ?_⟩
  intro gap rest hgap _
  have hskips : SkipsBlanks (scanItem rules stack) := skipsBlanks_peekValue.bind _
  rw [hskips gap _ hgap, scanItem, List.cons_append,
    bind_reads (peekValue_cons hstarts.notBlank _)]
  simp only [hopener, hdepth.not_refuses, Bool.false_eq_true, if_false]
  rw [bind_reads (advance_cons _ _)]
  rfl

/-- Elements of a list have no key. -/
theorem scansKeyed_item {item : Bytes} (h : Scans rules depth item) :
    ScansKeyed rules .list depth item := by
  obtain ⟨b, tail, hhead, hb⟩ := h.starts
  refine ⟨⟨b, tail, hhead, hb.notBlank, hb.notClose⟩, fun stack hdepth => ?_⟩
  apply h.takes
  rw [List.length_cons, Nat.add_assoc, Nat.add_comm 1]
  exact hdepth

/-- Members of an object, if the rules take their keys. -/
theorem scansKeyed_member {entry : Bytes × Bytes} {item : Bytes} (hitem : KeyedText entry item)
    (hstring : ∀ rest, rules.string (entry.1 ++ byte '"' :: rest) = .ok ((), rest))
    (hvalue : Scans rules depth entry.2) : ScansKeyed rules .object depth item := by
  cases hitem with
  | @mk key value gap gap' hgap hgap' =>
    refine ⟨⟨_, _, rfl, by decide, by decide⟩, fun stack hdepth => ?_⟩
    have hadmits : rules.Admits ((Frame.object :: stack).length + depth) := by
      rw [List.length_cons, Nat.add_assoc, Nat.add_comm 1]
      exact hdepth
    obtain ⟨state, opened, tail, hlength, hreturns, htakes⟩ :=
      hvalue.takes (.object :: stack) hadmits
    refine ⟨state, opened, tail, ?_, hreturns, ?_⟩
    · simp only [List.length_cons, List.length_append] at hlength ⊢
      omega
    · intro outer rest houter hrest
      have hkey : scanKey rules .object
          (byte '"' :: (key ++ byte '"' :: (gap ++ byte ':' :: (gap' ++ (value ++ rest)))))
          = .ok ((), gap' ++ (value ++ rest)) := by
        rw [scanKey, bind_reads (peek_cons (by decide) _)]
        simp only [if_true]
        rw [bind_reads (advance_cons _ _), bind_reads (hstring _)]
        exact colon_reads hgap _
      have hskips : SkipsBlanks (scanKeyed rules .object stack) :=
        (skipsBlanks_peek.bind _).bind _
      simp only [List.append_assoc, List.cons_append]
      rw [hskips outer _ houter, scanKeyed, bind_reads hkey]
      exact htakes gap' rest hgap' hrest

/-- An object of values that a scan takes, if the rules take its keys. -/
theorem scans_keyed {entries : List (Bytes × Bytes)} {body : Bytes}
    (hitems : List.Forall₂ KeyedText entries items) (hbody : Enclosed (byte '\x7d') items body)
    (hstring : ∀ e ∈ entries, ∀ rest, rules.string (e.1 ++ byte '"' :: rest) = .ok ((), rest))
    (hvalues : ∀ e ∈ entries, Scans rules depth e.2) :
    Scans rules (depth + 1) (byte '\x7b' :: body) := by
  refine scans_frame (show frameOf? (byte '\x7b') = some .object by decide)
    ⟨by decide, by decide⟩ hbody ?_
  clear hbody
  induction hitems with
  | nil => simp
  | @cons entry item entries items hmember _ ih =>
    rw [List.forall_mem_cons] at hstring hvalues ⊢
    exact ⟨scansKeyed_member hmember hstring.1 hvalues.1, ih hstring.2 hvalues.2⟩

/-- An object is scanned where its names are taken as strings and its values are scanned. -/
theorem scans_object {entries : List (String × Bytes)} {bytes : Bytes}
    (htext : ObjectText entries bytes)
    (hstring : ∀ e ∈ entries, ∀ rest,
      rules.string (bytesOf e.1 ++ byte '"' :: rest) = .ok ((), rest))
    (hvalues : ∀ e ∈ entries, Scans rules depth e.2) : Scans rules (depth + 1) bytes := by
  obtain ⟨items, body, rfl, hitems, hbody⟩ := htext
  have hkeyed : List.Forall₂ KeyedText (entries.map fun e => (bytesOf e.1, e.2)) items := by
    rw [List.forall₂_map_left_iff]
    exact hitems.imp fun _ _ h => h.keyed.1
  refine scans_keyed hkeyed hbody ?_ ?_
  · simpa only [List.forall_mem_map] using hstring
  · simpa only [List.forall_mem_map] using hvalues

end Frames

section Values

/-- A scalar takes a scan to behind it in one step. -/
theorem scans_scalar {rules : ScanRules} {b : UInt8} {tail : Bytes} (hb : StartsItem b)
    (hframe : frameOf? b = none)
    (hscalar : ∀ rest, Detached rest → scanScalar rules b (b :: (tail ++ rest)) = .ok ((), rest))
    (depth : Nat) : Scans rules depth (b :: tail) := by
  refine ⟨⟨b, tail, rfl, hb⟩, ?_⟩
  intro stack _
  refine ⟨.next, stack, [], by simp, .nil rules stack, ?_⟩
  intro gap rest hgap hrest
  have hskips : SkipsBlanks (scanItem rules stack) := skipsBlanks_peekValue.bind _
  rw [hskips gap _ hgap, scanItem, List.cons_append, bind_reads (peekValue_cons hb.notBlank _)]
  simp only [hframe]
  rw [bind_reads (hscalar rest hrest)]
  rfl

/-- A number goes to the number rule. -/
theorem scans_number {rules : ScanRules} {b : UInt8} {tail : Bytes} (hb : startsNumber b = true)
    (hnumber : ∀ rest, Detached rest → rules.number (b :: (tail ++ rest)) = .ok ((), rest))
    (depth : Nat) : Scans rules depth (b :: tail) := by
  have hframe : frameOf? b = none := by
    rw [frameOf?, if_neg (startsNumber_ne hb (by decide)), if_neg (startsNumber_ne hb (by decide))]
  refine scans_scalar (startsItem_of_startsNumber hb) hframe ?_ depth
  intro rest hrest
  rw [scanScalar, if_neg (startsNumber_ne hb (by decide)), if_neg (startsNumber_ne hb (by decide)),
    if_neg (startsNumber_ne hb (by decide)), if_pos hb]
  exact hnumber rest hrest

/-- The rules of a checking scan. -/
def checkRules : ScanRules where
  number := do let _ ← number
  string := do let _ ← text
  depthLimit := some nestingLimit

/-- Checking a value is a scan by the rules for checked values. -/
theorem checkValue_eq : checkValue = scan checkRules := rfl

/-- The rules for checked values admit one open frame. -/
theorem checkRules_admits_one : checkRules.Admits 1 := by
  rintro _ ⟨⟩
  decide

/-- An integer of 64 bits passes the check. -/
theorem scans_integer (depth : Nat) {value : Int} (hlow : -(Checked.signedBound : Int) ≤ value)
    (hhigh : value < Checked.sizeBound) : Scans checkRules depth (integerBytes value) := by
  obtain ⟨b, tail, hhead, hb⟩ := integerBytes_cons value
  rw [hhead]
  refine scans_number hb ?_ depth
  intro rest hrest
  have hnumber := number_integerBytes hlow hhigh hrest
  rw [hhead, List.cons_append] at hnumber
  change (number >>= fun _ => pure ()) (b :: (tail ++ rest)) = .ok ((), rest)
  rw [bind_reads hnumber]
  rfl

/-- The numeral of a size is scanned. -/
theorem scans_size (depth : Nat) (n : UInt64) : Scans checkRules depth (bytesOf (sizeText n)) :=
  scans_integer depth (size_range n).1 (size_range n).2

/-- The numeral of a 32-bit integer is scanned. -/
theorem scans_int32 (depth : Nat) (n : Int32) : Scans checkRules depth (bytesOf (int32Text n)) :=
  scans_integer depth (int32_range n).1 (int32_range n).2

/-- The rules for checked values take plain names. -/
theorem checkRules_string {name : String} (hname : Plain name) (rest : Bytes) :
    checkRules.string (bytesOf name ++ byte '"' :: rest) = .ok ((), rest) := by
  change (text >>= fun _ => pure ()) (bytesOf name ++ byte '"' :: rest) = .ok ((), rest)
  rw [bind_reads (text_plain hname rest)]
  rfl

/-- A value that a scan takes is passed over, and nothing more. -/
theorem Scans.scan_reads {rules : ScanRules} {depth : Nat} {bytes : Bytes}
    (h : Scans rules depth bytes) (hdepth : rules.Admits depth) {gap rest : Bytes}
    (hgap : Blank gap) (hrest : Detached rest) :
    scan rules (gap ++ (bytes ++ rest)) = .ok ((), rest) := by
  obtain ⟨state, opened, tail, -, hreturns, htakes⟩ := h.takes [] (by simpa using hdepth)
  obtain ⟨left, -, hrun⟩ := hreturns rest (tail ++ rest) hrest (by simp)
  rw [scan, bind_reads (htakes gap rest hgap hrest)]
  change (get >>= fun bytes => scanSteps rules bytes state opened) (tail ++ rest) = .ok ((), rest)
  rw [bind_reads (get_reads _), hrun]
  cases left <;> rfl

end Values

end QuantizedConv.Document
