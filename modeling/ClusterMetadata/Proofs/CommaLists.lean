import ClusterMetadata.Settings
import Mathlib.Data.List.DropRight

/-!
# Lists written with commas

A variable that holds a list is cut at its commas; each piece loses the white space around it, and
pieces of nothing else are left out.

* `pieces_intercalate`: cutting takes apart what was put together of pieces without a separator;
* `exists_trimChars`, `trimChars_between`: trimming takes away white space at both ends, all of it;
* `IsItem`: what can be an item of a list;
* `Padded`: items with white space around them and with blank parts between, `Padded.filter_trim`
  for what trimming makes of them;
* `lists_round_trip`: lists are read as items, and items that are written with commas, padded in any
  way, are read as they were.
-/
namespace ClusterMetadata

namespace Text

/-! ## Cutting -/

section
variable {α : Type} [DecidableEq α] {separator : α}

theorem not_mem_piece {as piece : List α} (mem : piece ∈ pieces separator as) :
    separator ∉ piece := by
  induction as generalizing piece with
  | nil => simp_all [pieces]
  | cons a as ih =>
    rw [pieces] at mem
    split at mem
    · rcases List.mem_cons.mp mem with rfl | later
      · exact List.not_mem_nil
      · exact ih later
    · next other =>
      cases whole : pieces separator as with
      | nil => exact absurd whole (pieces_ne_nil separator as)
      | cons first others =>
        rw [whole] at mem ih
        rcases List.mem_cons.mp mem with rfl | later
        · intro again
          rcases List.mem_cons.mp again with same | inside
          · exact other same.symm
          · exact ih List.mem_cons_self inside
        · exact ih (List.mem_cons_of_mem _ later)

theorem pieces_of_not_mem {piece : List α} (free : separator ∉ piece) :
    pieces separator piece = [piece] := by
  induction piece with
  | nil => rfl
  | cons a as ih =>
    obtain ⟨other, later⟩ : separator ≠ a ∧ separator ∉ as := by simpa using free
    rw [pieces, if_neg (Ne.symm other), ih later]

theorem pieces_append {piece : List α} (free : separator ∉ piece) (rest : List α) :
    pieces separator (piece ++ separator :: rest) = piece :: pieces separator rest := by
  induction piece with
  | nil => rw [List.nil_append, pieces, if_pos rfl]
  | cons a as ih =>
    obtain ⟨other, later⟩ : separator ≠ a ∧ separator ∉ as := by simpa using free
    rw [List.cons_append, pieces, if_neg (Ne.symm other), ih later]

/-- Pieces without a separator come out as they were put together. -/
theorem pieces_intercalate {parts : List (List α)} (nonempty : parts ≠ [])
    (free : ∀ part ∈ parts, separator ∉ part) :
    pieces separator ([separator].intercalate parts) = parts := by
  induction parts with
  | nil => exact absurd rfl nonempty
  | cons part rest ih =>
    have first := free part List.mem_cons_self
    cases rest with
    | nil => rw [List.intercalate_singleton, pieces_of_not_mem first]
    | cons next others =>
      rw [List.intercalate_cons_cons, List.append_assoc, List.singleton_append,
        pieces_append first, ih (List.cons_ne_nil _ _) fun part mem => free part (.tail _ mem)]

end

theorem not_mem_split {s part : String} (mem : part ∈ split ',' s) : ',' ∉ part.toList := by
  obtain ⟨piece, cut, rfl⟩ := List.mem_map.mp mem
  simpa using not_mem_piece cut

theorem split_intercalate {parts : List String} (nonempty : parts ≠ [])
    (free : ∀ part ∈ parts, ',' ∉ part.toList) : split ',' (",".intercalate parts) = parts := by
  have lists : pieces ',' ([','].intercalate (parts.map String.toList)) =
      parts.map String.toList := by
    apply pieces_intercalate
    · simpa using nonempty
    · simpa using free
  rw [split, String.toList_intercalate]
  simp [lists]

/-! ## Trimming -/

def Blank (s : String) : Prop := ∀ c ∈ s.toList, isSpace c

instance (s : String) : Decidable (Blank s) :=
  decidable_of_iff (s.toList.all isSpace) List.all_eq_true

/-- A comma is no white space. -/
theorem Blank.no_comma {s : String} (blank : Blank s) : ',' ∉ s.toList :=
  fun mem => absurd (blank ',' mem) (by decide)

/-- What trimming takes away is white space. -/
theorem exists_trimChars (cs : List Char) : ∃ before after : List Char,
    (∀ c ∈ before, isSpace c) ∧ (∀ c ∈ after, isSpace c) ∧
      cs = before ++ trimChars cs ++ after := by
  let rest := cs.dropWhile isSpace
  have back : rest = (rest.reverse.dropWhile isSpace).reverse ++
      (rest.reverse.takeWhile isSpace).reverse := by
    rw [← List.reverse_append, List.takeWhile_append_dropWhile, List.reverse_reverse]
  refine ⟨cs.takeWhile isSpace, (rest.reverse.takeWhile isSpace).reverse, ?_, ?_, ?_⟩
  · exact fun c mem => List.mem_takeWhile_imp mem
  · exact fun c mem => List.mem_takeWhile_imp (List.mem_reverse.mp mem)
  · rw [trimChars, List.append_assoc, ← back, List.takeWhile_append_dropWhile]

/-- White space at the ends does not show. -/
theorem trimChars_between {before after : List Char} (blank : ∀ c ∈ before, isSpace c)
    (blank' : ∀ c ∈ after, isSpace c) (cs : List Char) :
    trimChars (before ++ cs ++ after) = trimChars cs := by
  rw [trimChars, trimChars, List.append_assoc, List.dropWhile_append_of_pos blank,
    List.dropWhile_append]
  split
  · next empty =>
    -- nothing is left but what comes after
    rw [List.isEmpty_iff.mp empty, List.dropWhile_eq_nil_iff.mpr blank']
  · have turned : ∀ c ∈ after.reverse, isSpace c := fun c mem => blank' c (List.mem_reverse.mp mem)
    rw [List.reverse_append, List.dropWhile_append_of_pos turned]

theorem trimChars_trimChars (cs : List Char) : trimChars (trimChars cs) = trimChars cs := by
  obtain ⟨before, after, blank, blank', whole⟩ := exists_trimChars cs
  have between := trimChars_between blank blank' (trimChars cs)
  rw [← whole] at between
  exact between.symm

theorem mem_of_mem_trimChars {cs : List Char} {c : Char} (mem : c ∈ trimChars cs) : c ∈ cs := by
  obtain ⟨before, after, -, -, whole⟩ := exists_trimChars cs
  rw [whole]
  exact List.mem_append_left _ (List.mem_append_right _ mem)

theorem trim_between {before after : String} (blank : Blank before) (blank' : Blank after)
    (s : String) : trim (before ++ s ++ after) = trim s := by
  rw [trim, trim, String.toList_append, String.toList_append, trimChars_between blank blank']

theorem trim_trim (s : String) : trim (trim s) = trim s := by
  rw [trim, trim, String.toList_ofList, trimChars_trimChars]

theorem trim_of_blank {s : String} (blank : Blank s) : trim s = "" := by
  rw [trim, trimChars, List.dropWhile_eq_nil_iff.mpr blank]
  rfl

end Text

namespace Environment

/-! ## Items -/

/-- What can be an item of a list. -/
structure IsItem (s : String) : Prop where
  ne_empty : s ≠ ""
  no_comma : ',' ∉ s.toList
  trimmed : Text.trim s = s

instance (s : String) : Decidable (IsItem s) :=
  decidable_of_iff (s ≠ "" ∧ ',' ∉ s.toList ∧ Text.trim s = s)
    ⟨fun h => ⟨h.1, h.2.1, h.2.2⟩, fun h => ⟨h.ne_empty, h.no_comma, h.trimmed⟩⟩

/-- Parts that hold the items in their order, with white space around them and with blank parts
before, between and after them. -/
inductive Padded : List String → List String → Prop where
  | nil : Padded [] []
  | blank {gap : String} {items parts : List String} (blank : Text.Blank gap)
    (rest : Padded items parts) : Padded items (gap :: parts)
  | item {item before after : String} {items parts : List String} (blank : Text.Blank before)
    (blank' : Text.Blank after) (rest : Padded items parts) :
    Padded (item :: items) ((before ++ item ++ after) :: parts)

theorem padded_self (items : List String) : Padded items items := by
  have nothing : Text.Blank "" := by decide
  induction items with
  | nil => exact .nil
  | cons item items ih =>
    have padded : Padded (item :: items) (("" ++ item ++ "") :: items) := .item nothing nothing ih
    simpa using padded

theorem Padded.no_comma {items parts : List String} (padded : Padded items parts)
    (proper : ∀ item ∈ items, IsItem item) : ∀ part ∈ parts, ',' ∉ part.toList := by
  induction padded with
  | nil => exact List.forall_mem_nil _
  | blank blank _ ih => exact List.forall_mem_cons.mpr ⟨blank.no_comma, ih proper⟩
  | item blank blank' _ ih =>
    obtain ⟨own, others⟩ := List.forall_mem_cons.mp proper
    refine List.forall_mem_cons.mpr ⟨?_, ih others⟩
    simp only [String.toList_append, List.mem_append, not_or]
    exact ⟨⟨blank.no_comma, own.no_comma⟩, blank'.no_comma⟩

/-- Trimming leaves the items of the parts, and empty texts. -/
theorem Padded.filter_trim {items parts : List String} (padded : Padded items parts)
    (proper : ∀ item ∈ items, IsItem item) :
    (parts.map Text.trim).filter (· ≠ "") = items := by
  induction padded with
  | nil => rfl
  | blank blank _ ih =>
    rw [List.map_cons, Text.trim_of_blank blank, List.filter_cons_of_neg (by simp), ih proper]
  | item blank blank' _ ih =>
    obtain ⟨own, others⟩ := List.forall_mem_cons.mp proper
    rw [List.map_cons, Text.trim_between blank blank', own.trimmed,
      List.filter_cons_of_pos (by simpa using own.ne_empty), ih others]

/-! ## Reading and writing -/

theorem isItem_of_mem_listItems {s item : String} (mem : item ∈ listItems s) : IsItem item := by
  obtain ⟨trimmed, nonempty⟩ := List.mem_filter.mp mem
  obtain ⟨part, cut, rfl⟩ := List.mem_map.mp trimmed
  refine ⟨of_decide_eq_true nonempty, ?_, Text.trim_trim part⟩
  intro comma
  rw [Text.trim, String.toList_ofList] at comma
  exact Text.not_mem_split cut (Text.mem_of_mem_trimChars comma)

/-- Items are read from between their commas, however they are padded. -/
theorem listItems_of_padded {items parts : List String} (padded : Padded items parts)
    (proper : ∀ item ∈ items, IsItem item) : listItems (",".intercalate parts) = items := by
  by_cases empty : parts = []
  · subst empty
    cases padded
    decide
  · rw [listItems, Text.split_intercalate empty (padded.no_comma proper),
      padded.filter_trim proper]

def assign (env : Environment) (name value : String) : Environment :=
  Table.insert env (variableName name) value

theorem list_assign (env : Environment) (name value : String) :
    (env.assign name value).list name = listItems value := by
  rw [list, value?, assign, Table.get?_insert_self, Option.getD_some]

/-- Every list is read as items. Written with commas, with any white space around its items and any
blank parts between, it is read again as it was; and so is every list of items. -/
theorem lists_round_trip (env : Environment) (name : String) :
    (∀ item ∈ env.list name, IsItem item) ∧
      (∀ parts, Padded (env.list name) parts →
        (env.assign name (",".intercalate parts)).list name = env.list name) ∧
      ∀ items, (∀ item ∈ items, IsItem item) →
        (env.assign name (",".intercalate items)).list name = items := by
  have proper : ∀ item ∈ env.list name, IsItem item := fun item => isItem_of_mem_listItems
  refine ⟨proper, ?_, ?_⟩
  · intro parts padded
    rw [list_assign, listItems_of_padded padded proper]
  · intro items proper
    rw [list_assign, listItems_of_padded (padded_self items) proper]

def listedLabels : Environment := [("KUBEMETA_INCLUDE_LABELS", " app,\t, my tier\u3000,,")]

theorem lists_round_trip_labels :
    (∀ item ∈ listedLabels.list "INCLUDE_LABELS", IsItem item) ∧
      Padded (listedLabels.list "INCLUDE_LABELS") ["\u2003app", " ", "my tier\n"] ∧
      (listedLabels.assign "INCLUDE_LABELS" "\u2003app, ,my tier\n").list "INCLUDE_LABELS" =
        ["app", "my tier"] ∧
      (listedLabels.assign "INCLUDE_LABELS" "b,a c,b").list "INCLUDE_LABELS" =
        ["b", "a c", "b"] := by
  obtain ⟨proper, back, written⟩ := lists_round_trip listedLabels "INCLUDE_LABELS"
  have read : listedLabels.list "INCLUDE_LABELS" = ["app", "my tier"] := by decide
  have padded : Padded ["app", "my tier"]
      ["\u2003" ++ "app" ++ "", " ", "" ++ "my tier" ++ "\n"] :=
    .item (by decide) (by decide) (.blank (by decide) (.item (by decide) (by decide) .nil))
  rw [← read] at padded
  exact ⟨proper, padded, (back _ padded).trans read, written ["b", "a c", "b"] (by decide)⟩

end Environment

end ClusterMetadata
