import ClusterMetadata.Proofs.Shelves

/-!
# Maps out of sight

Work that is given maps in sight ends the same on two shelves that differ out of sight only. It
leaves alone what is out of sight, and what it makes is in sight.

* `Veil`: the maps and the lenders that are out of sight;
* `Veil.Clear`: a shelf on which nothing in sight leads out of sight;
* `Veil.Works`: work that ends the same on two shelves that look alike;
* `works_adjustAll`, `works_ofMap`: adjusting a draft, and making a section.
-/
namespace ClusterMetadata

open Json (Value Fields)

/-- The maps and the lenders that are out of sight. -/
structure Veil where
  maps : SharedMap → Prop
  lenders : Lender → Prop

namespace Draft

mutual
/-- The shared maps in a node have a property. -/
def Node.Only (own : SharedMap → Prop) : Node → Prop
  | .leaf _ => True
  | .map fields => Only own fields
  | .shared m => own m
termination_by structural node => node

def Only (own : SharedMap → Prop) : List (Text × Node) → Prop
  | [] => True
  | (_, node) :: rest => Node.Only own node ∧ Only own rest
termination_by structural fields => fields
end

variable {own own' : SharedMap → Prop}

mutual
theorem Node.Only.mono (le : ∀ m, own m → own' m) (node : Node) (h : node.Only own) :
    node.Only own' := by
  cases node with
  | leaf v => trivial
  | map fields => exact Only.mono le fields h
  | shared m => exact le m h

theorem Only.mono (le : ∀ m, own m → own' m) (d : List (Text × Node)) (h : Only own d) :
    Only own' d := by
  match d, h with
  | [], _ => trivial
  | (_, node) :: rest, h => exact ⟨Node.Only.mono le node h.1, Only.mono le rest h.2⟩
end

mutual
theorem Node.only_ofValue (own : SharedMap → Prop) (v : Value) : (Node.ofValue v).Only own := by
  cases v with
  | object fields => exact only_ofFields own fields
  | _ => trivial

theorem only_ofFields (own : SharedMap → Prop) (fields : List (Text × Value)) :
    Only own (ofFields fields) := by
  match fields with
  | [] => trivial
  | (_, v) :: rest => exact ⟨Node.only_ofValue own v, only_ofFields own rest⟩
end

theorem Only.get? {d : Draft} (h : Only own d) {name : Text} {node : Node}
    (there : Table.get? d name = some node) : node.Only own := by
  induction d with
  | nil => cases there
  | cons field rest ih =>
    obtain ⟨key, first⟩ := field
    rw [Table.get?] at there
    split at there
    · cases there
      exact h.1
    · exact ih h.2 there

theorem Only.insert {d : Draft} (h : Only own d) (name : Text) {node : Node}
    (only : node.Only own) : Only own (Table.insert d name node) := by
  induction d with
  | nil => exact ⟨only, trivial⟩
  | cons field rest ih =>
    obtain ⟨key, first⟩ := field
    rw [Table.insert]
    split
    · exact ⟨only, h.2⟩
    · exact ⟨h.1, ih h.2⟩

theorem Only.erase {d : Draft} (h : Only own d) (name : Text) : Only own (Table.erase d name) := by
  induction d with
  | nil => trivial
  | cons field rest ih =>
    obtain ⟨key, first⟩ := field
    rw [Table.erase]
    split
    · exact ih h.2
    · exact ⟨h.1, ih h.2⟩

theorem only_opened {existing : Option Node} (h : ∀ node ∈ existing, node.Only own) :
    Only own (opened existing) := by
  unfold opened
  split
  · trivial
  · trivial
  · exact ⟨h _ rfl, trivial⟩

end Draft

open Draft (Only)

namespace Veil

/-- A map is on a shelf and in sight. -/
def Sees (veil : Veil) (shelf : Shelf) (m : SharedMap) : Prop := shelf.Has m ∧ ¬ veil.maps m

/-- A slot that holds a map has one in sight. -/
def SeesSlot (veil : Veil) (shelf : Shelf) : Slot → Prop
  | .leaf _ => True
  | .map m => veil.Sees shelf m

def SeesSlots (veil : Veil) (shelf : Shelf) (slots : Table Text Slot) : Prop :=
  ∀ field ∈ slots, veil.SeesSlot shelf field.2

def SeesLoans (veil : Veil) (shelf : Shelf) (loans : Loans) : Prop :=
  ∀ (key : Text) m, loans[key]? = some m → veil.Sees shelf m

/-- Nothing in sight leads out of sight. -/
structure Clear (veil : Veil) (shelf : Shelf) : Prop where
  placed : ∀ m, veil.maps m → shelf.Has m
  inner : ∀ m, ¬ veil.maps m → veil.SeesSlots shelf (shelf.fields m)
  lent : ∀ lender, ¬ veil.lenders lender → veil.SeesLoans shelf (shelf.lent.getD lender {})

/-- Two shelves look alike. -/
structure Twins (veil : Veil) (shelf twin : Shelf) : Prop where
  clear : veil.Clear shelf
  size : twin.maps.size = shelf.maps.size
  fields : ∀ m, ¬ veil.maps m → twin.fields m = shelf.fields m
  lent : ∀ lender, ¬ veil.lenders lender → twin.lent.getD lender {} = shelf.lent.getD lender {}

/-- A shelf has become another, where what is out of sight is as it was. -/
structure Keeps (veil : Veil) (shelf after : Shelf) : Prop where
  size : shelf.maps.size ≤ after.maps.size
  fields : ∀ m, veil.maps m → after.fields m = shelf.fields m
  lent : ∀ lender, veil.lenders lender → after.lent.getD lender {} = shelf.lent.getD lender {}

variable {veil : Veil} {shelf twin after : Shelf}

theorem Keeps.refl (veil : Veil) (shelf : Shelf) : veil.Keeps shelf shelf :=
  ⟨Nat.le_refl _, fun _ _ => rfl, fun _ _ => rfl⟩

theorem Keeps.trans {last : Shelf} (h : veil.Keeps shelf after) (h' : veil.Keeps after last) :
    veil.Keeps shelf last :=
  ⟨Nat.le_trans h.size h'.size, fun m out => (h'.fields m out).trans (h.fields m out),
    fun lender out => (h'.lent lender out).trans (h.lent lender out)⟩

theorem Sees.grown {m : SharedMap} (h : veil.Sees shelf m)
    (size : shelf.maps.size ≤ after.maps.size) : veil.Sees after m :=
  ⟨Nat.lt_of_lt_of_le h.1 size, h.2⟩

theorem SeesSlot.mono {other : Veil} {slot : Slot} (h : veil.SeesSlot shelf slot)
    (more : ∀ m, veil.Sees shelf m → other.Sees after m) : other.SeesSlot after slot := by
  cases slot with
  | leaf v => trivial
  | map m => exact more m h

theorem SeesSlot.grown {slot : Slot} (h : veil.SeesSlot shelf slot)
    (size : shelf.maps.size ≤ after.maps.size) : veil.SeesSlot after slot :=
  h.mono fun _ sees => sees.grown size

/-- Slots are in sight when the maps in them are. -/
theorem seesSlots_of_inner {slots : Table Text Slot}
    (h : ∀ name m, (name, .map m) ∈ slots → veil.Sees shelf m) : veil.SeesSlots shelf slots := by
  rintro ⟨name, slot⟩ mem
  cases slot with
  | leaf v => trivial
  | map m => exact h name m mem

theorem SeesSlots.mono {other : Veil} {slots : Table Text Slot} (h : veil.SeesSlots shelf slots)
    (more : ∀ m, veil.Sees shelf m → other.Sees after m) : other.SeesSlots after slots :=
  fun field mem => (h field mem).mono more

theorem SeesSlots.grown {slots : Table Text Slot} (h : veil.SeesSlots shelf slots)
    (size : shelf.maps.size ≤ after.maps.size) : veil.SeesSlots after slots :=
  h.mono fun _ sees => sees.grown size

theorem SeesLoans.mono {other : Veil} {loans : Loans} (h : veil.SeesLoans shelf loans)
    (more : ∀ m, veil.Sees shelf m → other.Sees after m) : other.SeesLoans after loans :=
  fun key m found => more m (h key m found)

theorem SeesLoans.grown {loans : Loans} (h : veil.SeesLoans shelf loans)
    (size : shelf.maps.size ≤ after.maps.size) : veil.SeesLoans after loans :=
  h.mono fun _ sees => sees.grown size

theorem only_grown {d : Draft} (h : Only (veil.Sees shelf) d)
    (size : shelf.maps.size ≤ after.maps.size) : Only (veil.Sees after) d :=
  h.mono fun _ sees => sees.grown size

theorem Clear.get? (h : veil.Clear shelf) {m : SharedMap} (sees : veil.Sees shelf m) {name : Text}
    {slot : Slot} (there : Table.get? (shelf.fields m) name = some slot) :
    veil.SeesSlot shelf slot :=
  h.inner m sees.2 _ (Table.mem_of_get? there)

theorem Clear.twins (h : veil.Clear shelf) : veil.Twins shelf shelf :=
  ⟨h, rfl, fun _ _ => rfl, fun _ _ => rfl⟩

/-- Work that ends the same on two shelves that look alike, which look alike afterwards. -/
def Works {α : Type} (veil : Veil) (shelf twin : Shelf) (x : OnShelf α) (post : Shelf → α → Prop) :
    Prop :=
  ∃ a after after', x.run shelf = (a, after) ∧ x.run twin = (a, after') ∧
    veil.Twins after after' ∧ veil.Keeps shelf after ∧ veil.Keeps twin after' ∧ post after a

section

variable {α β : Type}

theorem works_pure (twins : veil.Twins shelf twin) {a : α} {post : Shelf → α → Prop}
    (h : post shelf a) : veil.Works shelf twin (pure a) post :=
  ⟨a, shelf, twin, rfl, rfl, twins, .refl .., .refl .., h⟩

theorem Works.bind {x : OnShelf α} {f : α → OnShelf β} {post : Shelf → α → Prop}
    {post' : Shelf → β → Prop} (hx : veil.Works shelf twin x post)
    (hf : ∀ after after' a, veil.Twins after after' → shelf.maps.size ≤ after.maps.size →
      post after a → veil.Works after after' (f a) post') :
    veil.Works shelf twin (x >>= f) post' := by
  obtain ⟨a, after, after', run, run', twins, keeps, keeps', made⟩ := hx
  obtain ⟨b, last, last', next, next', twins, further, further', made⟩ :=
    hf after after' a twins keeps.size made
  refine ⟨b, last, last', ?_, ?_, twins, keeps.trans further, keeps'.trans further', made⟩
  · rw [OnShelf.run_bind run, next]
  · rw [OnShelf.run_bind run', next']

theorem Works.mono {x : OnShelf α} {post post' : Shelf → α → Prop}
    (h : veil.Works shelf twin x post)
    (weaker : ∀ after a, shelf.maps.size ≤ after.maps.size → post after a → post' after a) :
    veil.Works shelf twin x post' := by
  obtain ⟨a, after, after', run, run', twins, keeps, keeps', made⟩ := h
  exact ⟨a, after, after', run, run', twins, keeps, keeps', weaker after a keeps.size made⟩

/-- Looking at something in sight. -/
theorem works_get {f : Shelf → OnShelf α} {post : Shelf → α → Prop} (same : f twin = f shelf)
    (h : veil.Works shelf twin (f shelf) post) : veil.Works shelf twin (get >>= f) post := by
  obtain ⟨a, after, after', run, run', twins, keeps, keeps', made⟩ := h
  refine ⟨a, after, after', ?_, ?_, twins, keeps, keeps', made⟩
  · exact (OnShelf.run_bind (a := shelf) rfl f).trans run
  · rw [← same] at run'
    exact (OnShelf.run_bind (a := twin) rfl f).trans run'

theorem works_foldlM {items : List β} {step : α → β → OnShelf α} {inv : Shelf → α → Prop}
    (keeps : ∀ after after' a item, item ∈ items → veil.Twins after after' → inv after a →
      veil.Works after after' (step a item) inv) (twins : veil.Twins shelf twin) {start : α}
    (h : inv shelf start) : veil.Works shelf twin (items.foldlM step start) inv := by
  induction items generalizing shelf twin start with
  | nil => exact works_pure twins h
  | cons item rest ih =>
    rw [List.foldlM_cons]
    refine (keeps _ _ _ item List.mem_cons_self twins h).bind fun after after' a twins _ made => ?_
    exact ih (fun after after' a item mem => keeps after after' a item (List.mem_cons_of_mem _ mem))
      twins made

end

/-! ## Single maps -/

section

variable (twins : veil.Twins shelf twin)
include twins

theorem works_make {slots : Table Text Slot} (sees : veil.SeesSlots shelf slots) :
    veil.Works shelf twin (SharedMap.make slots) veil.Sees := by
  have grown : shelf.maps.size ≤ (shelf.pushed slots).maps.size := by simp [Shelf.pushed]
  have has {s : Shelf} {m : SharedMap} (inside : s.Has m) : m ≠ ⟨s.maps.size⟩ := by
    rintro rfl
    exact Nat.lt_irrefl _ inside
  have keeps {s : Shelf} (placed : ∀ m, veil.maps m → s.Has m) : veil.Keeps s (s.pushed slots) := by
    refine ⟨by simp [Shelf.pushed], fun m out => ?_, fun _ _ => rfl⟩
    rw [Shelf.fields_pushed, if_neg (has (placed m out))]
  have placed (m : SharedMap) (out : veil.maps m) : twin.Has m := by
    rw [Shelf.Has, twins.size]
    exact twins.clear.placed m out
  have same : (⟨twin.maps.size⟩ : SharedMap) = ⟨shelf.maps.size⟩ := by rw [twins.size]
  refine ⟨⟨shelf.maps.size⟩, shelf.pushed slots, twin.pushed slots, rfl, ?_, ⟨⟨?_, ?_, ?_⟩, ?_, ?_, ?_⟩,
    keeps twins.clear.placed, keeps placed, ?_, ?_⟩
  · rw [← same]
    rfl
  · exact fun m out => Nat.lt_of_lt_of_le (twins.clear.placed m out) grown
  · intro m seen
    rw [Shelf.fields_pushed]
    split
    · exact sees.grown grown
    · exact (twins.clear.inner m seen).grown grown
  · exact fun lender seen => SeesLoans.grown (twins.clear.lent lender seen) grown
  · simp [Shelf.pushed, twins.size]
  · intro m seen
    rw [Shelf.fields_pushed, Shelf.fields_pushed, same, twins.fields m seen]
  · exact twins.lent
  · simp [Shelf.Has, Shelf.pushed]
  · exact fun out => has (twins.clear.placed _ out) rfl

theorem works_insert {m : SharedMap} (sees : veil.Sees shelf m) (name : Text) {slot : Slot}
    (seesSlot : veil.SeesSlot shelf slot) :
    veil.Works shelf twin (m.insert name slot) fun _ _ => True := by
  have there : twin.Has m := by
    rw [Shelf.Has, twins.size]
    exact sees.1
  have kept {s : Shelf} (inside : s.Has m) (slots : Table Text Slot) :
      veil.Keeps s (s.rewritten m slots) := by
    refine ⟨by simp [Shelf.rewritten], fun m' out => ?_, fun _ _ => rfl⟩
    have other : m' ≠ m := by
      rintro rfl
      exact sees.2 out
    rw [Shelf.fields_rewritten s inside, if_neg other]
  have size {slots : Table Text Slot} :
      shelf.maps.size ≤ (shelf.rewritten m slots).maps.size := by simp [Shelf.rewritten]
  refine ⟨(), shelf.rewritten m (Table.insert (shelf.fields m) name slot),
    twin.rewritten m (Table.insert (twin.fields m) name slot), rfl, rfl, ⟨⟨?_, ?_, ?_⟩, ?_, ?_, ?_⟩,
    kept sees.1 _, kept there _, trivial⟩
  · exact fun m' out => Nat.lt_of_lt_of_le (twins.clear.placed m' out) size
  · intro m' seen
    rw [Shelf.fields_rewritten shelf sees.1]
    split
    · intro field mem
      rcases Table.mem_insert mem with rfl | mem
      · exact seesSlot.grown size
      · exact (twins.clear.inner m sees.2 field mem).grown size
    · exact (twins.clear.inner m' seen).grown size
  · exact fun lender seen => SeesLoans.grown (twins.clear.lent lender seen) size
  · simp [Shelf.rewritten, twins.size]
  · intro m' seen
    rw [Shelf.fields_rewritten shelf sees.1, Shelf.fields_rewritten twin there,
      twins.fields m sees.2, twins.fields m' seen]
  · exact twins.lent

theorem works_inner {m : SharedMap} (sees : veil.Sees shelf m) (name : Text)
    {fresh : Option Slot → Table Text Slot}
    (seesFresh : ∀ existing, (∀ slot ∈ existing, veil.SeesSlot shelf slot) →
      veil.SeesSlots shelf (fresh existing)) :
    veil.Works shelf twin (m.inner name fresh) veil.Sees := by
  unfold SharedMap.inner
  refine works_get (by simp only [twins.fields m sees.2]) ?_
  have made (existing : Option Slot) (seen : ∀ slot ∈ existing, veil.SeesSlot shelf slot) :
      veil.Works shelf twin (do
        let inner ← SharedMap.make (fresh existing)
        m.insert name (.map inner)
        return inner) veil.Sees := by
    refine (works_make twins (seesFresh existing seen)).bind ?_
    intro after after' inner twins size seesInner
    have seesSlot : veil.SeesSlot after (.map inner) := seesInner
    refine (works_insert twins (sees.grown size) name seesSlot).bind ?_
    exact fun last last' _ twins size _ => works_pure twins (Sees.grown seesInner size)
  cases there : Table.get? (shelf.fields m) name with
  | none => exact made none nofun
  | some slot =>
    have seesSlot := twins.clear.get? sees there
    cases slot with
    | leaf v =>
      refine made (some (.leaf v)) ?_
      rintro _ ⟨⟩
      trivial
    | map inner => exact works_pure twins seesSlot

theorem works_safePutHere {m : SharedMap} (sees : veil.Sees shelf m) (name : Text) {slot : Slot}
    (seesSlot : veil.SeesSlot shelf slot) :
    veil.Works shelf twin (m.safePutHere name slot) fun _ _ => True := by
  unfold SharedMap.safePutHere
  refine works_get (by simp only [twins.fields m sees.2]) ?_
  split
  · next inner there =>
    have seesInner : veil.Sees shelf inner := twins.clear.get? sees there
    split
    · exact works_insert twins sees name seesSlot
    · exact works_insert twins seesInner _ seesSlot
  · exact works_insert twins sees name seesSlot

theorem works_safePut {m : SharedMap} (sees : veil.Sees shelf m) (path : Path) {slot : Slot}
    (seesSlot : veil.SeesSlot shelf slot) :
    veil.Works shelf twin (m.safePut path slot) fun _ _ => True := by
  induction path generalizing shelf twin m with
  | nil => exact works_pure twins trivial
  | cons name rest ih =>
    cases rest with
    | nil => exact works_safePutHere twins sees name seesSlot
    | cons next rest =>
      have opened (existing : Option Slot)
          (seen : ∀ slot ∈ existing, veil.SeesSlot shelf slot) :
          veil.SeesSlots shelf (SharedMap.opened existing) := by
        unfold SharedMap.opened
        split
        · exact nofun
        · exact nofun
        · intro field mem
          cases List.mem_singleton.mp mem
          exact seen _ rfl
      refine (works_inner twins sees name opened).bind ?_
      exact fun after after' inner twins size seesInner =>
        ih twins seesInner (seesSlot.grown size)

end

/-! ## Drafts -/

mutual
/-- Making the maps of a node shared. -/
theorem works_share {shelf twin : Shelf} (twins : veil.Twins shelf twin) (node : Draft.Node)
    (only : node.Only (veil.Sees shelf)) :
    veil.Works shelf twin node.share veil.SeesSlot := by
  cases node with
  | leaf v => exact works_pure twins trivial
  | map fields =>
    rw [Draft.Node.share]
    refine (works_shareFields twins fields only).bind fun after after' slots twins _ sees => ?_
    refine (works_make twins sees).bind fun last last' m twins _ seesMap => ?_
    exact works_pure twins seesMap
  | shared m => exact works_pure twins only

theorem works_shareFields {shelf twin : Shelf} (twins : veil.Twins shelf twin)
    (fields : List (Text × Draft.Node)) (only : Only (veil.Sees shelf) fields) :
    veil.Works shelf twin (Draft.shareFields fields) veil.SeesSlots := by
  match fields, only with
  | [], _ => exact works_pure twins nofun
  | (name, node) :: rest, only =>
    rw [Draft.shareFields]
    refine (works_share twins node only.1).bind fun after after' slot twins size sees => ?_
    refine (works_shareFields twins rest (only_grown only.2 size)).bind ?_
    intro last last' slots twins size others
    refine works_pure twins fun field mem => ?_
    rcases List.mem_cons.mp mem with rfl | mem
    · exact sees.grown size
    · exact others field mem
end

/-- The draft that is made holds maps in sight. -/
abbrev SeesDraft (veil : Veil) (shelf : Shelf) (d : Draft) : Prop := Only (veil.Sees shelf) d

theorem works_within {d : Draft} (only : veil.SeesDraft shelf d) (name : Text)
    {fresh : Option Draft.Node → Draft}
    (onlyFresh : ∀ existing, (∀ node ∈ existing, node.Only (veil.Sees shelf)) →
      veil.SeesDraft shelf (fresh existing))
    {own : Draft → OnShelf Draft}
    (worksOwn : ∀ fields, veil.SeesDraft shelf fields →
      veil.Works shelf twin (own fields) veil.SeesDraft)
    {shared : SharedMap → OnShelf Unit}
    (worksShared : ∀ m, veil.Sees shelf m →
      veil.Works shelf twin (shared m) fun _ _ => True) :
    veil.Works shelf twin (d.within name fresh own shared) veil.SeesDraft := by
  have written (fields : Draft) (seen : veil.SeesDraft shelf fields) :
      veil.Works shelf twin (do return Table.insert d name (.map (← own fields)))
        veil.SeesDraft := by
    refine (worksOwn fields seen).bind fun after after' fields twins size seen => ?_
    exact works_pure twins ((only_grown only size).insert name seen)
  rw [Draft.within.eq_def]
  split
  · next m there =>
    refine (worksShared m (only.get? there)).bind fun after after' _ twins size _ => ?_
    exact works_pure twins (only_grown only size)
  · next fields there => exact written fields (only.get? there)
  · refine written _ (onlyFresh _ fun node there => ?_)
    exact only.get? (Option.mem_def.mp there)

variable (twins : veil.Twins shelf twin)
include twins

/-- Writing a node that becomes shared. -/
theorem works_shared {node : Draft.Node} (only : node.Only (veil.Sees shelf))
    {write : Slot → OnShelf Unit}
    (works : ∀ after after' slot, veil.Twins after after' → shelf.maps.size ≤ after.maps.size →
      veil.SeesSlot after slot → veil.Works after after' (write slot) fun _ _ => True) :
    veil.Works shelf twin (do write (← node.share)) fun _ _ => True :=
  (works_share twins node only).bind works

theorem works_draft_safePutHere {d : Draft} (only : veil.SeesDraft shelf d) (name : Text)
    {node : Draft.Node} (onlyNode : node.Only (veil.Sees shelf)) :
    veil.Works shelf twin (d.safePutHere name node) veil.SeesDraft := by
  have inserted : veil.Works shelf twin (pure (Table.insert d name node)) veil.SeesDraft :=
    works_pure twins (only.insert name onlyNode)
  unfold Draft.safePutHere
  split
  · split
    · refine works_within only name (fun _ _ => by trivial) (fun fields seen => ?_)
        fun m sees => ?_
      · exact works_pure twins (seen.insert _ onlyNode)
      · exact works_shared twins onlyNode fun after after' slot twins size seesSlot =>
          works_insert twins (sees.grown size) _ seesSlot
    · exact inserted
  · exact inserted

theorem works_draft_safePut {d : Draft} (only : veil.SeesDraft shelf d) (path : Path)
    {node : Draft.Node} (onlyNode : node.Only (veil.Sees shelf)) :
    veil.Works shelf twin (d.safePut path node) veil.SeesDraft := by
  induction path generalizing d with
  | nil => exact works_pure twins only
  | cons name rest ih =>
    cases rest with
    | nil => exact works_draft_safePutHere twins only name onlyNode
    | cons next rest =>
      refine works_within only name (fun _ seen => Draft.only_opened seen)
        (fun fields seen => ih seen) fun m sees => ?_
      exact works_shared twins onlyNode fun after after' slot twins size seesSlot =>
        works_safePut twins (sees.grown size) _ seesSlot

theorem works_nestSection (under : Text) {d : Draft} (only : veil.SeesDraft shelf d)
    (name : Text) : veil.Works shelf twin (Draft.nestSection under d name) veil.SeesDraft := by
  have rest := only.erase name
  rw [Draft.nestSection.eq_def]
  split
  · exact works_pure twins rest
  · exact works_pure twins rest
  · next node _ there => exact works_draft_safePut twins rest _ (only.get? there)

/-- Adjusting a draft. -/
theorem works_adjustAll (options : List FieldOption) {d : Draft} (only : veil.SeesDraft shelf d) :
    veil.Works shelf twin (Draft.adjustAll options d) veil.SeesDraft := by
  refine works_foldlM (fun after after' d option _ twins only => ?_) twins only
  cases option with
  | field key value => exact works_draft_safePut twins only _ (Draft.Node.only_ofValue _ value)
  | nest under =>
    exact works_foldlM (fun after after' d name _ twins only =>
      works_nestSection twins under only name) twins only

/-! ## Sections -/

theorem works_lend {loans : Loans} (sees : veil.SeesLoans shelf loans) (entry : Text × Value) :
    veil.Works shelf twin (Draft.lend loans entry) veil.SeesLoans := by
  unfold Draft.lend
  split
  · next key fields =>
    split
    · exact works_pure twins sees
    · refine (works_shareFields twins _ (Draft.only_ofFields _ fields)).bind ?_
      intro after after' slots twins size seesSlots
      refine (works_make twins seesSlots).bind fun last last' m twins size' seesMap => ?_
      refine works_pure twins fun other m' found => ?_
      rw [Std.HashMap.getElem?_insert] at found
      split at found
      · cases found
        exact seesMap
      · exact (sees other m' found).grown (Nat.le_trans size size')
  · exact works_pure twins sees

theorem works_lendAll {lender : Lender} (seen : ¬ veil.lenders lender) (entries : Fields) :
    veil.Works shelf twin (Draft.lendAll lender entries) veil.SeesLoans := by
  unfold Draft.lendAll
  split
  · refine works_pure twins fun key m found => ?_
    simp at found
  · refine works_get (by simp only [twins.lent lender seen]) ?_
    have lends : veil.Works shelf twin
        (entries.foldlM Draft.lend (shelf.lent.getD lender {})) veil.SeesLoans :=
      works_foldlM (fun after after' loans entry _ twins sees => works_lend twins sees entry) twins
        (twins.clear.lent lender seen)
    refine lends.bind ?_
    intro after after' loans twins _ sees
    -- The loans are noted on both shelves, where they are in sight.
    have kept (s : Shelf) :
        veil.Keeps s { s with lent := s.lent.insert lender loans } := by
      refine ⟨Nat.le_refl _, fun _ _ => rfl, fun other out => ?_⟩
      have apart : ¬ lender = other := by
        rintro rfl
        exact seen out
      rw [Std.HashMap.getD_insert, if_neg (by simpa using apart)]
    refine ⟨loans, _, _, rfl, rfl, ⟨⟨twins.clear.placed, twins.clear.inner, ?_⟩, twins.size,
      twins.fields, ?_⟩, kept after, kept after', sees⟩
    · intro other seen'
      rw [Std.HashMap.getD_insert]
      split
      · exact sees
      · exact twins.clear.lent other seen'
    · intro other seen'
      simp only [Std.HashMap.getD_insert, twins.lent other seen']

/-- Making a section of a lender in sight. -/
theorem works_ofMap {lender : Lender} (seen : ¬ veil.lenders lender) (dedot : Bool)
    (source : Fields) :
    veil.Works shelf twin (Draft.ofMap lender dedot source) veil.SeesDraft := by
  unfold Draft.ofMap
  refine (works_lendAll twins seen _).bind fun after after' loans twins _ sees => ?_
  have both : veil.Works after after' (Draft.ofEntries loans dedot (Json.sortFields source))
      fun s d => after.maps.size ≤ s.maps.size ∧ veil.SeesDraft s d := by
    refine works_foldlM (fun s s' d entry _ twins made => ?_) twins ⟨Nat.le_refl _, trivial⟩
    obtain ⟨size, only⟩ := made
    have onlyNode : (Draft.lentNode loans entry).Only (veil.Sees s) := by
      unfold Draft.lentNode
      split
      · next m found => exact (sees _ m found).grown size
      · exact Draft.Node.only_ofValue ..
    have added : veil.Works s s' (Draft.addEntry dedot d entry.1 (Draft.lentNode loans entry))
        veil.SeesDraft := by
      unfold Draft.addEntry
      split
      · exact works_pure twins (only.insert _ onlyNode)
      · exact works_draft_safePut twins only _ onlyNode
    exact added.mono fun last d size' only => ⟨Nat.le_trans size size', only⟩
  exact both.mono fun _ _ _ made => made.2

end Veil

end ClusterMetadata
