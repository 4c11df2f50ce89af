import NestStorageExample.Text.Decimal

/-! Texts of a fixed layout: groups of decimal digits of given widths between fixed signs.
A layout is read and filled in. -/
namespace NestStorageExample.Text

def isDigit (u : CodeUnit) : Bool := 0x30 ≤ u.toNat && u.toNat ≤ 0x39

/-- `\d{width}` in a group of its own, or one sign. -/
inductive Piece where
  | digits (width : Nat)
  | sign (u : CodeUnit)

abbrev Layout := List Piece

/-- The groups of a text of that layout, from its start to its end. -/
def Layout.read : Layout → JsString → Option (List JsString)
  | [], s => if s = [] then some [] else none
  | .digits width :: layout, s =>
    if (s.take width).length = width ∧ (s.take width).all isDigit then
      (Layout.read layout (s.drop width)).map (s.take width :: ·)
    else none
  | .sign u :: layout, s => if s.head? = some u then Layout.read layout s.tail else none

/-- The text with these groups. -/
def Layout.fill : Layout → List JsString → JsString
  | [], _ => []
  | .digits _ :: layout, groups => groups.headD [] ++ Layout.fill layout groups.tail
  | .sign u :: layout, groups => u :: Layout.fill layout groups

/-- How wide the groups of digits are. -/
def Layout.widths : Layout → List Nat
  | [] => []
  | .digits width :: layout => width :: Layout.widths layout
  | .sign _ :: layout => Layout.widths layout

def IsGroup (width : Nat) (group : JsString) : Prop := group.length = width ∧ group.all isDigit = true

/-- One group of digits of the right width for each of the layout's. -/
def Layout.Fits (layout : Layout) (groups : List JsString) : Prop := List.Forall₂ IsGroup layout.widths groups

theorem Layout.read_fill {layout : Layout} {groups : List JsString} (h : layout.Fits groups) :
    layout.read (layout.fill groups) = some groups := by
  induction layout generalizing groups with
  | nil =>
    cases h
    rfl
  | cons piece layout ih =>
    cases piece with
    | digits width =>
      obtain _ | ⟨⟨rfl, hdigits⟩, hrest⟩ := h
      rw [Layout.fill, List.headD_cons, List.tail_cons, Layout.read, List.take_left, List.drop_left,
        if_pos ⟨rfl, hdigits⟩, ih hrest]
      rfl
    | sign u =>
      rw [Layout.fill, Layout.read, List.head?_cons, if_pos rfl, List.tail_cons]
      exact ih h

/-- A text has a layout only as that layout filled in. -/
theorem Layout.of_read {layout : Layout} {s : JsString} {groups : List JsString} (h : layout.read s = some groups) :
    layout.Fits groups ∧ s = layout.fill groups := by
  induction layout generalizing s groups with
  | nil =>
    rw [Layout.read] at h
    split at h
    · cases h
      exact ⟨List.Forall₂.nil, ‹_›⟩
    · cases h
  | cons piece layout ih =>
    cases piece with
    | digits width =>
      rw [Layout.read] at h
      split at h
      · rename_i hgroup
        obtain ⟨rest, hrest, rfl⟩ := Option.map_eq_some_iff.mp h
        obtain ⟨hfits, hdrop⟩ := ih hrest
        refine ⟨List.Forall₂.cons hgroup hfits, ?_⟩
        rw [Layout.fill, List.headD_cons, List.tail_cons, ← hdrop, List.take_append_drop]
      · cases h
    | sign u =>
      rw [Layout.read] at h
      split at h
      · rename_i hhead
        obtain ⟨hfits, htail⟩ := ih h
        refine ⟨hfits, ?_⟩
        rw [Layout.fill, ← htail]
        cases s with
        | nil => cases hhead
        | cons c s =>
          rw [List.head?_cons, Option.some.injEq] at hhead
          rw [hhead, List.tail_cons]
      · cases h

/-- `n` in `width` decimal digits; more significant ones are lost. -/
def fixedDecimal : Nat → Nat → JsString
  | 0, _ => []
  | width + 1, n => fixedDecimal width (n / 10) ++ [UInt16.ofNat (0x30 + n % 10)]

theorem fixedDecimal_length (width n : Nat) : (fixedDecimal width n).length = width := by
  induction width generalizing n with
  | zero => rfl
  | succ width ih => rw [fixedDecimal, List.length_append, ih]; rfl

private theorem digitUnit_toNat (n : Nat) : (UInt16.ofNat (0x30 + n % 10)).toNat = 0x30 + n % 10 := by
  rw [UInt16.toNat_ofNat']
  omega

theorem fixedDecimal_digits (width n : Nat) : (fixedDecimal width n).all isDigit = true := by
  induction width generalizing n with
  | zero => rfl
  | succ width ih =>
    have hunit := digitUnit_toNat n
    rw [fixedDecimal, List.all_append, ih, Bool.true_and, List.all_cons, List.all_nil, Bool.and_true, isDigit, hunit,
      Bool.and_eq_true, decide_eq_true_eq, decide_eq_true_eq]
    omega

theorem isGroup_fixedDecimal (width n : Nat) : IsGroup width (fixedDecimal width n) :=
  ⟨fixedDecimal_length width n, fixedDecimal_digits width n⟩

theorem readDecimal_concat (s : JsString) (u : CodeUnit) :
    readDecimal (s ++ [u]) = 10 * readDecimal s + (u.toNat - 0x30) := by
  rw [readDecimal, List.foldl_append]
  rfl

theorem readDecimal_fixedDecimal {width n : Nat} (h : n < 10 ^ width) : readDecimal (fixedDecimal width n) = n := by
  induction width generalizing n with
  | zero =>
    rw [Nat.pow_zero] at h
    rw [fixedDecimal]
    exact (Nat.lt_one_iff.mp h).symm
  | succ width ih =>
    have hquotient : n / 10 < 10 ^ width := by
      rw [Nat.pow_succ] at h
      omega
    rw [fixedDecimal, readDecimal_concat, ih hquotient, digitUnit_toNat]
    omega

/-- Digits are the digits of the number they stand for. -/
theorem IsGroup.eq_fixedDecimal {width : Nat} {group : JsString} (h : IsGroup width group) :
    group = fixedDecimal width (readDecimal group) ∧ readDecimal group < 10 ^ width := by
  obtain ⟨rfl, hdigits⟩ := h
  induction group using List.reverseRecOn with
  | nil => exact ⟨rfl, Nat.one_pos⟩
  | append_singleton s u ih =>
    rw [List.all_append, Bool.and_eq_true] at hdigits
    obtain ⟨htext, hlt⟩ := ih hdigits.1
    have hunit := hdigits.2
    simp only [List.all_cons, List.all_nil, Bool.and_true, isDigit, Bool.and_eq_true, decide_eq_true_eq] at hunit
    have hquotient : (10 * readDecimal s + (u.toNat - 0x30)) / 10 = readDecimal s := by omega
    have hdigit : 0x30 + (10 * readDecimal s + (u.toNat - 0x30)) % 10 = u.toNat := by omega
    rw [readDecimal_concat, List.length_append, List.length_singleton, fixedDecimal, hquotient, ← htext, hdigit,
      UInt16.ofNat_toNat, Nat.pow_succ]
    exact ⟨rfl, by omega⟩

end NestStorageExample.Text
