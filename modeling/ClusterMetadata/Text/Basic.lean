/-! Text as manifests hold it: a list of code points.

A manifest may name one half of a surrogate pair by an escape and leave out the other. Such a half
is no character, so it has no place in a `String`; here it is a code point like any other. A
`String` stands for the text of its characters. -/
namespace ClusterMetadata

/-- A code point of Unicode: the number of a character, or of a surrogate without its partner. -/
structure CodePoint where
  number : Nat
  number_lt : number < 0x110000
deriving DecidableEq, Repr

namespace CodePoint

def ofChar (c : Char) : CodePoint where
  number := c.toNat
  number_lt := by
    rcases c.valid with below | above
    · exact Nat.lt_trans below (by decide)
    · exact above.2

theorem ofChar_injective {c d : Char} (h : ofChar c = ofChar d) : c = d :=
  Char.toNat_inj.mp (congrArg number h)

/-- The character of a code point; a surrogate has none. -/
def char? (p : CodePoint) : Option Char :=
  if h : p.number.isValidChar then some (Char.ofNatAux p.number h) else none

/-- The code point with a number, or the last one when the number is greater. -/
def ofNumber (n : Nat) : CodePoint := ⟨min n 0x10ffff, by omega⟩

end CodePoint

structure Text where
  points : List CodePoint
deriving Repr

namespace Text

def samePoints : List CodePoint → List CodePoint → Bool
  | [], [] => true
  | p :: ps, q :: qs => p.number == q.number && samePoints ps qs
  | _, _ => false

theorem samePoints_iff {ps qs : List CodePoint} : samePoints ps qs ↔ ps = qs := by
  induction ps generalizing qs with
  | nil => cases qs <;> simp [samePoints]
  | cons p ps ih =>
    cases qs with
    | nil => simp [samePoints]
    | cons q qs =>
      cases p
      cases q
      simp [samePoints, ih]

instance : DecidableEq Text := fun s t =>
  decidable_of_iff (samePoints s.points t.points) (by cases s; cases t; simp [samePoints_iff])

instance : Hashable Text := ⟨fun t => hash (t.points.map CodePoint.number)⟩

def ofChars (cs : List Char) : Text := ⟨cs.map .ofChar⟩

def ofString (s : String) : Text := ofChars s.toList

instance : Coe String Text := ⟨ofString⟩

theorem ofString_injective {s t : String} (h : ofString s = ofString t) : s = t := by
  have points : s.toList.map CodePoint.ofChar = t.toList.map CodePoint.ofChar :=
    congrArg Text.points h
  exact String.toList_inj.mp
    ((List.map_inj_right fun _ _ same => CodePoint.ofChar_injective same).mp points)

instance : Inhabited Text := ⟨⟨[]⟩⟩

instance : Append Text := ⟨fun s t => ⟨s.points ++ t.points⟩⟩

def length (t : Text) : Nat := t.points.length

def join (separator : Text) (parts : List Text) : Text :=
  ⟨separator.points.intercalate (parts.map points)⟩

/-- Whether one list of code points comes before another or is the same. -/
def pointsLe : List CodePoint → List CodePoint → Bool
  | [], _ => true
  | _ :: _, [] => false
  | p :: ps, q :: qs => p.number < q.number || (p.number == q.number && pointsLe ps qs)

/-- The order of texts: the first code points that differ decide, and a text comes before those
that it begins. -/
def le (s t : Text) : Bool := pointsLe s.points t.points

theorem pointsLe_trans {ps qs rs : List CodePoint} (h : pointsLe ps qs) (k : pointsLe qs rs) :
    pointsLe ps rs := by
  induction ps generalizing qs rs with
  | nil => rfl
  | cons p ps ih =>
    cases qs with
    | nil => simp [pointsLe] at h
    | cons q qs =>
      cases rs with
      | nil => simp [pointsLe] at k
      | cons r rs =>
        simp only [pointsLe, Bool.or_eq_true, Bool.and_eq_true, decide_eq_true_eq,
          beq_iff_eq] at h k ⊢
        rcases h with h | ⟨h, hrest⟩ <;> rcases k with k | ⟨k, krest⟩
        · exact .inl (Nat.lt_trans h k)
        · exact .inl (k ▸ h)
        · exact .inl (h ▸ k)
        · exact .inr ⟨h.trans k, ih hrest krest⟩

theorem pointsLe_total (ps qs : List CodePoint) : pointsLe ps qs || pointsLe qs ps := by
  induction ps generalizing qs with
  | nil => rfl
  | cons p ps ih =>
    cases qs with
    | nil => rfl
    | cons q qs =>
      have rest := ih qs
      simp only [pointsLe, Bool.or_eq_true, Bool.and_eq_true, decide_eq_true_eq,
        beq_iff_eq] at rest ⊢
      rcases Nat.lt_trichotomy p.number q.number with less | same | more
      · exact .inl (.inl less)
      · rcases rest with rest | rest
        · exact .inl (.inr ⟨same, rest⟩)
        · exact .inr (.inr ⟨same.symm, rest⟩)
      · exact .inr (.inl more)

theorem pointsLe_antisymm {ps qs : List CodePoint} (h : pointsLe ps qs) (k : pointsLe qs ps) :
    ps = qs := by
  induction ps generalizing qs with
  | nil => cases qs with
    | nil => rfl
    | cons q qs => simp [pointsLe] at k
  | cons p ps ih =>
    cases qs with
    | nil => simp [pointsLe] at h
    | cons q qs =>
      simp only [pointsLe, Bool.or_eq_true, Bool.and_eq_true, decide_eq_true_eq,
        beq_iff_eq] at h k
      rcases h with h | ⟨same, hrest⟩ <;> rcases k with k | ⟨back, krest⟩
      · exact absurd h (Nat.lt_asymm k)
      · exact absurd back.symm (Nat.ne_of_lt h)
      · exact absurd same.symm (Nat.ne_of_lt k)
      · cases p
        cases q
        cases same
        rw [ih hrest krest]

theorem le_trans {s t u : Text} (h : le s t) (k : le t u) : le s u := pointsLe_trans h k

theorem le_total (s t : Text) : le s t || le t s := pointsLe_total s.points t.points

theorem le_antisymm {s t : Text} (h : le s t) (k : le t s) : s = t := by
  cases s
  cases t
  exact congrArg Text.mk (pointsLe_antisymm h k)

/-- One text stands strictly before another. -/
def Before (s t : Text) : Prop := s.le t ∧ s ≠ t

theorem pairwise_mergeSort (ts : List Text) :
    (ts.mergeSort le).Pairwise fun s t => s.le t :=
  @List.pairwise_mergeSort Text le (fun _ _ _ h k => le_trans h k) le_total ts

/-- Sorting texts that are all different puts each strictly before the next. -/
theorem pairwise_before_mergeSort {ts : List Text} (distinct : ts.Nodup) :
    (ts.mergeSort le).Pairwise Before := by
  have ordered := pairwise_mergeSort ts
  have different := (List.mergeSort_perm ts le).nodup_iff.mpr distinct
  exact ordered.and different

/-- What sorting gives depends only on which texts there are. -/
theorem mergeSort_congr {ts us : List Text} (distinct : ts.Nodup) (distinct' : us.Nodup)
    (same : ∀ t, t ∈ ts ↔ t ∈ us) : ts.mergeSort le = us.mergeSort le := by
  apply List.Perm.eq_of_pairwise (fun _ _ _ _ h k => le_antisymm h k)
  · exact pairwise_mergeSort ts
  · exact pairwise_mergeSort us
  · have perm := (List.perm_ext_iff_of_nodup distinct distinct').mpr same
    exact (List.mergeSort_perm ts le).trans (perm.trans (List.mergeSort_perm us le).symm)

/-- A number in hexadecimal, padded with zeros to a width. -/
def hex (width n : Nat) : List Char :=
  let digits := Nat.toDigits 16 n
  List.replicate (width - digits.length) '0' ++ digits

/-- The characters a code point is printed with: a surrogate has none and is escaped. -/
def printedPoint (p : CodePoint) : List Char :=
  match p.char? with
  | some c => [c]
  | none => '\\' :: 'u' :: hex 4 p.number

/-- The text as it is printed where only characters can be. -/
def printed (t : Text) : String := String.ofList (t.points.flatMap printedPoint)

end Text

end ClusterMetadata
