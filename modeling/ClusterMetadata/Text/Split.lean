import ClusterMetadata.Text.Basic

/-! Texts cut at a separator. -/
namespace ClusterMetadata.Text

variable {α : Type} [DecidableEq α]

/-- The pieces between separators; there is always one more piece than there are separators. -/
def pieces (separator : α) : List α → List (List α)
  | [] => [[]]
  | a :: as =>
    if a = separator then [] :: pieces separator as
    else match pieces separator as with
      | [] => [[a]]
      | piece :: others => (a :: piece) :: others

def split (separator : Char) (s : String) : List String :=
  (pieces separator s.toList).map String.ofList

def cut (separator : Char) (t : Text) : List Text :=
  (pieces (.ofChar separator) t.points).map Text.mk

theorem pieces_ne_nil (separator : α) (as : List α) : pieces separator as ≠ [] := by
  cases as with
  | nil => simp [pieces]
  | cons a as => simp only [pieces]; split <;> (try split) <;> simp

/-- Putting the separators back gives the list again. -/
theorem intercalate_pieces (separator : α) (as : List α) :
    List.intercalate [separator] (pieces separator as) = as := by
  induction as with
  | nil => simp [pieces]
  | cons a as ih =>
    rw [pieces]
    split
    · next h =>
      subst h
      cases hp : pieces a as with
      | nil => exact absurd hp (pieces_ne_nil a as)
      | cons piece others => rw [hp] at ih; simpa [List.intercalate] using ih
    · cases hp : pieces separator as with
      | nil => exact absurd hp (pieces_ne_nil separator as)
      | cons piece others =>
        rw [hp] at ih
        cases others <;> simp_all [List.intercalate]

end ClusterMetadata.Text
