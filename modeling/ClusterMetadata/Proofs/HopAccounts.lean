import Mathlib.Data.List.Forall2
import ClusterMetadata.Proofs.Mute
import ClusterMetadata.Proofs.OwnerChain
import ClusterMetadata.Proofs.RootedDrafts

/-!
# Whom a pod generator asks, and what comes of it

The peers of a pod generator are watched: each question is reported before it is answered. What they
answer, and whether they touch the shelf, is up to them. Every native document of a pod comes with
an account: which controller each hop asked for, what the peer said, and what was made of it.

* `leads_takeHop`: a hop asks once or not at all, and takes over the name that it is told;
* `leads_forPods`: the account of one draft;
* `leads_call`: the account of one call;
* `calls_account_for_hops`: calls one after the other report their accounts and nothing else, and
  as many look-ups of a hop as questions to its peer.
-/
namespace ClusterMetadata

open Json (Value)
open Drafting (Leads mute_pure mute_except mute_onShelf)

/-! ## Watched peers -/

namespace Peer

/-- A peer that reports each question under a name, and then answers it. -/
def watched (name : Text) (peer : Peer) : Peer where
  ask asked options := do
    Traced.report (.asked name asked options.length)
    peer.ask asked options

def always (answer : Option Document) : Peer where
  ask _ options :=
    match answer with
    | some d => some <$> (Draft.adjustAll options (.ofFields d) : OnShelf Draft)
    | none => pure none

def Mute (peer : Peer) : Prop := ∀ name options, (peer.ask name options).Mute

theorem mute_always (answer : Option Document) : (always answer).Mute := by
  intro name options
  cases answer with
  | none => exact mute_pure none
  | some d =>
    change (some <$> (liftM (Draft.adjustAll options (Draft.ofFields d)) :
      Drafting Draft)).Mute
    rw [map_eq_pure_bind]
    exact (mute_onShelf _).bind fun adjusted => mute_pure (some adjusted)

/-- One question is reported, and the answer is the peer's. -/
theorem leads_watched {peer : Peer} (mute : peer.Mute) (name asked : Text)
    (options : List FieldOption) (shelf : Shelf) :
    Leads shelf ((peer.watched name).ask asked options) fun answer trace left =>
      trace = [.asked name asked options.length] ∧
        peer.ask asked options shelf = (⟨.ok answer, []⟩, left) := by
  intro answer given
  have silent := mute asked options shelf
  change ((peer.ask asked options) shelf).1.result = .ok answer at given
  refine ⟨?_, ?_⟩
  · change [_] ++ ((peer.ask asked options) shelf).1.trace = _
    rw [silent]
    rfl
  · rw [← given, ← silent]
    rfl

end Peer

namespace PodParts

/-- The same parts with watched peers, each under the field of its kind. -/
def watched (parts : PodParts) : PodParts :=
  { parts with
    node := parts.node.map (·.watched Kind.node.field)
    space := parts.space.map (·.watched Kind.namespace.field)
    replicaSet := parts.replicaSet.map (·.watched Kind.replicaSet.field)
    job := parts.job.map (·.watched Kind.job.field) }

theorem peerFor_watched (parts : PodParts) (hop : Hop) :
    parts.watched.peerFor hop = (parts.peerFor hop).map (·.watched hop.via.field) := by
  cases hop <;> rfl

structure Mute (parts : PodParts) : Prop where
  node : ∀ peer ∈ parts.node, peer.Mute
  space : ∀ peer ∈ parts.space, peer.Mute
  hops : ∀ hop, ∀ peer ∈ parts.peerFor hop, peer.Mute

end PodParts

/-! ## One hop -/

/-- A question to the peer of a hop, with the answer and the shelf that the answer left. -/
structure Consultation where
  via : Text
  answer : Option Draft
  now : Shelf

namespace Consultation

/-- The owner's name in the answer, when the answer is a document and the name a text that is not
empty. -/
def owner? (c : Consultation) (hop : Hop) : Option Text :=
  c.answer.bind (Draft.ownerName? c.now · hop.owner)

/-- What is reported of a question: the question, and whether the owner was found. -/
def trace (c : Consultation) (hop : Hop) : List Occurrence :=
  [.asked hop.via.field c.via 0,
    match c.owner? hop with
    | some _ => .ownerFound hop
    | none => .ownerUnresolved hop c.via c.answer.isSome]

end Consultation

namespace Draft

/-- The draft after a hop: with the owner that was found, and as it was without one. -/
def taking (d : Draft) (hop : Hop) (consulted : Option Consultation) : Draft :=
  match consulted.bind (·.owner? hop) with
  | some name => d.withName hop.owner.field name
  | none => d

theorem rooted_taking {d : Draft} (h : Rooted d) (hop : Hop) (consulted : Option Consultation) :
    Rooted (d.taking hop consulted) := by
  unfold taking
  split
  · exact rooted_withName h _ _
  · exact h

theorem get?_taking (d : Draft) (hop : Hop) (consulted : Option Consultation) {name : Text}
    (other : Text.ofString hop.owner.field ≠ name) :
    Table.get? (d.taking hop consulted) name = Table.get? d name := by
  unfold taking
  split
  · rw [withName, Table.get?_insert, if_neg other]
  · rfl

end Draft

/-- What a hop asks for a draft: the controller that the draft names, when the hop is switched on,
has a peer and the draft names one. The answer is the peer's. -/
structure PodParts.Consults (parts : PodParts) (hop : Hop) (d : Draft)
    (consulted : Option Consultation) : Prop where
  asked : ∀ now, consulted.map (·.via) =
    if hop ∈ parts.hops ∧ (parts.peerFor hop).isSome then d.ownerName? now hop.via else none
  answered : ∀ c ∈ consulted, ∃ peer ∈ parts.peerFor hop, ∃ before,
    peer.ask c.via [] before = (⟨.ok c.answer, []⟩, c.now)

namespace Draft

variable {parts : PodParts}

/-- A hop asks its peer once or not at all, reports a hit or a miss of what it asked, and takes over
the name that it is told. -/
theorem leads_takeHop (mute : parts.Mute) {d : Draft} (rooted : Rooted d) (hop : Hop)
    (shelf : Shelf) :
    Leads shelf (takeHop parts.watched d hop) fun d' trace _ => ∃ consulted,
      parts.Consults hop d consulted ∧ trace = consulted.elim [] (·.trace hop) ∧
        d' = d.taking hop consulted := by
  have unasked (h : ∀ now, (if hop ∈ parts.hops ∧ (parts.peerFor hop).isSome then
      d.ownerName? now hop.via else none) = none) : ∃ consulted,
      parts.Consults hop d consulted ∧ ([] : List Occurrence) = consulted.elim [] (·.trace hop) ∧
        d = d.taking hop consulted :=
    ⟨none, ⟨fun now => (h now).symm, nofun⟩, rfl, rfl⟩
  unfold takeHop
  rw [PodParts.peerFor_watched]
  cases there : parts.peerFor hop with
  | none => exact Drafting.leads_pure (unasked (by simp [there]))
  | some peer =>
    by_cases on : hop ∈ parts.hops
    · have on' : hop ∈ parts.watched.hops := on
      simp only [Option.map_some, if_pos on']
      refine (Drafting.leads_self shelf Drafting.shelf).bind ?_
      rintro _ _ _ ⟨⟩
      cases named : d.ownerName? shelf hop.via with
      | none =>
        have nowhere : ∀ now, d.ownerName? now hop.via = none := fun now =>
          (ownerName?_of_rooted rooted now shelf _).trans named
        exact Drafting.leads_pure (unasked fun now => by rw [nowhere, ite_self])
      | some via =>
        dsimp only
        refine (Peer.leads_watched (mute.hops hop peer there) _ via [] shelf).bind ?_
        rintro answer _ left ⟨rfl, answered⟩
        refine (Drafting.leads_self left Drafting.shelf).bind ?_
        rintro _ _ _ ⟨⟩
        have consults : parts.Consults hop d (some ⟨via, answer, left⟩) := by
          refine ⟨fun now => ?_, ?_⟩
          · rw [if_pos ⟨on, by rw [there]; rfl⟩, ownerName?_of_rooted rooted now shelf, named]
            rfl
          · rintro _ ⟨⟩
            exact ⟨peer, there, shelf, answered⟩
        cases said : answer.bind (ownerName? left · hop.owner) with
        | none =>
          refine (Drafting.leads_self left _).bind ?_
          rintro _ _ _ ⟨⟩
          refine Drafting.leads_pure ⟨_, consults, ?_, ?_⟩
          · simp [Consultation.trace, Consultation.owner?, said]
          · simp [taking, Consultation.owner?, said]
        | some name =>
          refine (Drafting.leads_self left _).bind ?_
          rintro _ _ _ ⟨⟩
          rw [putName_of_rooted rooted]
          refine Drafting.leads_pure ⟨_, consults, ?_, ?_⟩
          · simp [Consultation.trace, Consultation.owner?, said]
          · simp [taking, Consultation.owner?, said]
    · have off : hop ∉ parts.watched.hops := on
      simp only [Option.map_some, if_neg off]
      exact Drafting.leads_pure (unasked fun now => if_neg fun h => on h.1)

end Draft

/-! ## One draft -/

def Occurrence.question (peer : Text) (options : Nat) (asked : Option Text) : List Occurrence :=
  asked.elim [] fun name => [.asked peer name options]

/-- How the draft of a pod was made: the namespace that was asked for, the draft with what the
namespace adds, what the hops asked for, and the node that was asked for. -/
structure Generation where
  pod : Resource
  options : List FieldOption
  space : Option Text
  base : Draft
  consulted : Hop → Option Consultation
  node : Option Text

namespace Generation

def resolved (g : Generation) : Draft :=
  (g.base.taking .deployment (g.consulted .deployment)).taking .cronJob (g.consulted .cronJob)

/-- All that is reported, in order. -/
def trace (g : Generation) : List Occurrence :=
  Occurrence.question Kind.namespace.field 0 g.space ++
    ((g.consulted .deployment).elim [] (·.trace .deployment) ++
      ((g.consulted .cronJob).elim [] (·.trace .cronJob) ++
        Occurrence.question Kind.node.field 1 g.node))

end Generation

def laterFields : List Text := [Kind.node.field, Kind.pod.field]

/-- A draft is made as an account says: the base is the draft of the pod with what its namespace
adds, each hop asks what the base makes it ask, and what the hops found is in the draft, which
differs from the base in no other field but those that are written later. -/
structure PodParts.Makes (parts : PodParts) (g : Generation) (d : Draft) : Prop where
  base : ∃ start left, parts.projector.nativeInSpace parts.watched.space Kind.pod.field g.pod
    g.options start = (⟨.ok g.base, Occurrence.question Kind.namespace.field 0 g.space⟩, left)
  consults : ∀ hop, parts.Consults hop g.base (g.consulted hop)
  resolved : Draft.SameBut (· ∈ laterFields) g.resolved d

namespace Projector

variable {parts : PodParts}

/-- At most the namespace of the resource is asked for. -/
theorem leads_nativeInSpace (p : Projector) (mute : parts.Mute) (field : Text) (r : Resource)
    (options : List FieldOption) (shelf : Shelf) :
    Leads shelf (p.nativeInSpace parts.watched.space field r options) fun d trace _ =>
      d.Rooted ∧ ∃ space, trace = Occurrence.question Kind.namespace.field 0 space := by
  have rooted := p.ensures_nativeInSpace_rooted parts.watched.space field r options
  have reports : Leads shelf (p.nativeInSpace parts.watched.space field r options)
      fun _ trace _ => ∃ space, trace = Occurrence.question Kind.namespace.field 0 space := by
    refine ((p.mute_native field r options).leads (Drafting.ensures_true _) shelf).bind ?_
    rintro d _ left ⟨-, rfl⟩
    change Leads left (mergeSpace (parts.space.map (·.watched Kind.namespace.field)) r d) _
    cases there : parts.space with
    | none => exact Drafting.leads_pure ⟨none, rfl⟩
    | some peer =>
      refine ((mute_except r.space).leads (Drafting.ensures_true _) left).bind ?_
      rintro space _ now ⟨-, rfl⟩
      dsimp only
      split
      · exact Drafting.leads_pure ⟨none, rfl⟩
      · refine (Peer.leads_watched (mute.space peer there) _ space [] now).bind ?_
        rintro answer _ next ⟨rfl, -⟩
        cases answer with
        | none => exact Drafting.leads_pure ⟨some space, rfl⟩
        | some other =>
          refine ((Draft.mute_merge d other).leads (Drafting.ensures_true _) next).mono ?_
          rintro _ _ _ ⟨-, rfl⟩
          exact ⟨some space, rfl⟩
  exact fun d made => ⟨rooted shelf d made, reports d made⟩

end Projector

namespace Draft

variable {parts : PodParts}

/-- At most the node of the pod is asked for. -/
theorem leads_addNode (mute : parts.Mute) (d : Draft) (nodeName : Text) (shelf : Shelf) :
    Leads shelf (addNode parts.watched.node d nodeName) fun d' trace _ =>
      SameBut (· = Text.ofString Kind.node.field) d d' ∧
        ∃ node, trace = Occurrence.question Kind.node.field 1 node := by
  have written := ensures_addNode parts.watched.node d nodeName
  have reports : Leads shelf (addNode parts.watched.node d nodeName) fun _ trace _ =>
      ∃ node, trace = Occurrence.question Kind.node.field 1 node := by
    have silent (x : OnShelf Draft) (shelf : Shelf) : Leads shelf (liftM x : Drafting Draft)
        fun _ trace _ => trace = [] := fun _ _ => rfl
    have node : parts.watched.node = parts.node.map (·.watched Kind.node.field) := rfl
    rw [addNode_eq, node]
    split
    · exact Drafting.leads_pure ⟨none, rfl⟩
    · cases there : parts.node with
      | none => exact (silent _ shelf).mono fun _ _ _ silent => ⟨none, silent⟩
      | some peer =>
        refine (Peer.leads_watched (mute.node peer there) _ nodeName _ shelf).bind ?_
        rintro answer _ left ⟨rfl, -⟩
        refine (silent _ left).mono ?_
        rintro _ _ _ rfl
        exact ⟨some nodeName, rfl⟩
  exact fun d' made => ⟨written shelf d' made, reports d' made⟩

theorem SameBut.trans {names : Text → Prop} {d d' d'' : Draft} (h : SameBut names d d')
    (h' : SameBut names d' d'') : SameBut names d d'' :=
  fun name apart => (h' name apart).trans (h name apart)

theorem SameBut.mono {names names' : Text → Prop} {d d' : Draft} (h : SameBut names d d')
    (le : ∀ name, names name → names' name) : SameBut names' d d' :=
  fun name apart => h name fun mem => apart (le name mem)

end Draft

namespace Generator

variable {parts : PodParts}

/-- The draft of a pod comes with an account that is all that is reported. -/
theorem leads_forPods (mute : parts.Mute) (pod : Resource) (options : List FieldOption)
    (shelf : Shelf) :
    Leads shelf ((forPods parts.watched).build pod options) fun d trace _ => ∃ g : Generation,
      g.pod = pod ∧ g.options = options ∧ parts.Makes g d ∧ trace = g.trace := by
  have started := parts.projector.leads_nativeInSpace mute Kind.pod.field pod options shelf
  have both : Leads shelf (parts.projector.nativeInSpace parts.watched.space Kind.pod.field pod
      options) fun base trace left => (base.Rooted ∧
        ∃ space, trace = Occurrence.question Kind.namespace.field 0 space) ∧
        parts.projector.nativeInSpace parts.watched.space Kind.pod.field pod options shelf =
          (⟨.ok base, trace⟩, left) :=
    fun base made => ⟨started base made, Drafting.leads_self shelf _ base made⟩
  refine both.bind ?_
  rintro base _ left ⟨⟨rooted, space, rfl⟩, made⟩
  refine (Draft.leads_takeHop mute rooted .deployment left).bind ?_
  rintro _ _ left ⟨deployment, consults, rfl, rfl⟩
  have rooted' := Draft.rooted_taking rooted .deployment deployment
  refine (Draft.leads_takeHop mute rooted' .cronJob left).bind ?_
  rintro _ _ left ⟨cronJob, consults', rfl, rfl⟩
  refine ((mute_except pod.nodeName).leads (Drafting.ensures_true _) left).bind ?_
  rintro nodeName _ left ⟨-, rfl⟩
  refine (Draft.leads_addNode mute _ nodeName left).bind ?_
  rintro d _ left ⟨same, node, rfl⟩
  refine ((mute_except pod.podAddress).leads (Drafting.ensures_true _) left).bind ?_
  rintro address _ left ⟨-, rfl⟩
  refine ((mute_onShelf _).leads (Draft.ensures_putText d Kind.pod.field ["ip"] address) left).mono
    ?_
  rintro d' _ _ ⟨same', rfl⟩
  -- The first hop writes nothing that the second one reads.
  have asked (now : Shelf) : (base.taking .deployment deployment).ownerName? now Hop.cronJob.via =
      base.ownerName? now Hop.cronJob.via := by
    rw [Draft.ownerName?, Draft.ownerName?, Draft.at?, Draft.at?,
      Draft.get?_taking _ _ _ (by decide)]
  refine ⟨⟨pod, options, space, base, fun hop => if hop = .deployment then deployment else cronJob, node⟩,
    rfl, rfl, ⟨⟨shelf, _, made⟩, ?_, ?_⟩, ?_⟩
  · intro hop
    cases hop with
    | deployment => exact consults
    | cronJob => exact ⟨fun now => (consults'.asked now).trans (by rw [asked]), consults'.answered⟩
  · refine (same.mono ?_).trans (same'.mono ?_)
    · rintro _ rfl
      exact List.mem_cons_self
    · rintro _ rfl
      exact List.mem_cons_of_mem _ List.mem_cons_self
  · simp [Generation.trace]

end Generator

/-! ## Calls -/

inductive Call where
  | generate (r : Option Resource) (options : List FieldOption)
  | native (r : Option Resource) (options : List FieldOption)
  | fromName (name : Text) (options : List FieldOption)

def Generator.call (g : Generator) : Call → Drafting (Option Document)
  | .generate r options => g.generate r options
  | .native r options => g.native r options
  | .fromName name options => g.fromName name options

namespace Call

def options : Call → List FieldOption
  | generate _ options | native _ options | fromName _ options => options

/-- The pod that a call is about; nothing when it is about something else. -/
def pod? (store : Option Store) : Call → Option Resource
  | generate r _ | native r _ => r.filter (·.kind = .pod)
  | fromName name _ => (lookup store name (some .pod)).filter (·.kind = .pod)

/-- What a call answers when this is the native document of the pod. -/
def Answers (projector : Projector) (pod : Resource) (document : Document)
    (answer : Option Document) : Call → Prop
  | generate _ _ => ∃ orchestrator, projector.orchestrator (some pod) = .ok orchestrator ∧
      answer = some (document.union orchestrator)
  | native _ _ | fromName _ _ => answer = some document

end Call

/-- A native document is made as an account says, and has the owners that its hops found. -/
structure PodParts.Tells (parts : PodParts) (g : Generation) (document : Document) : Prop where
  makes : ∃ d left, parts.Makes g d ∧ d.shown left = some document
  named : ∀ hop name, (g.consulted hop).bind (·.owner? hop) = some name →
    Document.get? document [hop.owner.field, nameField] = some (.string name)

namespace Draft

/-- When a draft is shown, each of its fields is. -/
theorem shown_of_get? {shared : SharedMap → Option Value} {d : Draft} {document : Document}
    (h : shownFields shared d = some document) {name : Text} {node : Node}
    (there : Table.get? d name = some node) :
    ∃ v, node.shown shared = some v ∧ Table.get? document name = some v := by
  induction d generalizing document with
  | nil => cases there
  | cons field rest ih =>
    obtain ⟨key, first⟩ := field
    rw [shownFields] at h
    obtain ⟨v, shown, h⟩ := Option.bind_eq_some_iff.mp h
    obtain ⟨fields, later, h⟩ := Option.bind_eq_some_iff.mp h
    cases h
    by_cases hk : key = name
    · rw [Table.get?, if_pos hk] at there
      cases there
      exact ⟨v, shown, by rw [Table.get?, if_pos hk]⟩
    · rw [Table.get?, if_neg hk] at there ⊢
      exact ih later there

/-- A document is what the draft shows at the end. -/
theorem leads_document (d : Draft) (shelf : Shelf) :
    Leads shelf d.document fun document trace _ => d.shown shelf = some document ∧ trace = [] := by
  refine (Drafting.leads_self shelf Drafting.shelf).bind ?_
  rintro _ _ _ ⟨⟩
  cases d.shown shelf with
  | none => exact nofun
  | some document => exact Drafting.leads_pure ⟨rfl, rfl⟩

/-- A name that was written is shown. -/
theorem get?_of_withName {shelf : Shelf} {d below : Draft} {document : Document}
    (shown : d.shown shelf = some document) {field name : Text}
    (h : Table.get? d field = some (.map (Table.insert below nameField (.ofText name)))) :
    Document.get? document [field, nameField] = some (.string name) := by
  obtain ⟨v, mapShown, there⟩ := shown_of_get? shown h
  rw [Node.shown, Option.map_eq_some_iff] at mapShown
  obtain ⟨fields, fieldsShown, rfl⟩ := mapShown
  rw [Document.get?_cons, there, Option.bind_some, Value.at?_object_cons,
    get?_shownFields fieldsShown, Table.get?_insert_self]
  rfl

end Draft

namespace PodParts

variable {parts : PodParts}

theorem tells_of_makes {g : Generation} {d : Draft} (makes : parts.Makes g d) {left : Shelf}
    {document : Document} (shown : d.shown left = some document) : parts.Tells g document := by
  refine ⟨⟨d, left, makes, shown⟩, fun hop name found => ?_⟩
  have outside : Text.ofString hop.owner.field ∉ laterFields := by cases hop <;> decide
  have field := makes.resolved _ outside
  -- The second hop leaves what the first one found.
  obtain ⟨below, there⟩ : ∃ below, Table.get? g.resolved hop.owner.field =
      some (.map (Table.insert below nameField (.ofText name))) := by
    cases hop with
    | deployment =>
      rw [Generation.resolved, Draft.get?_taking _ _ _ (by decide), Draft.taking, found]
      exact ⟨_, Table.get?_insert_self _ _ _⟩
    | cronJob =>
      rw [Generation.resolved, Draft.taking, found]
      exact ⟨_, Table.get?_insert_self _ _ _⟩
  exact Draft.get?_of_withName shown (field.trans there)

end PodParts

/-- The account of a call: its answer and, if the call is about a pod, how the native document was
made, and which. -/
structure Account where
  answer : Option Document
  made : Option (Generation × Document)

/-- What is reported in a call. -/
def Account.trace (account : Account) : List Occurrence := account.made.elim [] (·.1.trace)

/-- A call goes as an account says. -/
def PodParts.Accounts (parts : PodParts) (call : Call) (account : Account) : Prop :=
  match account.made with
  | none => call.pod? parts.store = none ∧ account.answer = none
  | some (g, document) => call.pod? parts.store = some g.pod ∧ call.options = g.options ∧
      parts.Tells g document ∧ call.Answers parts.projector g.pod document account.answer

namespace Generator

variable {parts : PodParts}

/-- A native document comes with an account, and without a pod there is neither. -/
theorem leads_native (mute : parts.Mute) (r : Option Resource) (options : List FieldOption)
    (shelf : Shelf) :
    Leads shelf ((forPods parts.watched).native r options) fun answer trace _ =>
      (r.filter (·.kind = .pod) = none ∧ answer = none ∧ trace = []) ∨
        ∃ g document, r.filter (·.kind = .pod) = some g.pod ∧ options = g.options ∧
          answer = some document ∧ parts.Tells g document ∧ trace = g.trace := by
  have nothing (absent : r.filter (·.kind = .pod) = none) :
      Leads shelf (pure none : Drafting (Option Document)) fun answer trace _ =>
        (r.filter (·.kind = .pod) = none ∧ answer = none ∧ trace = []) ∨
          ∃ g document, r.filter (·.kind = .pod) = some g.pod ∧ options = g.options ∧
            answer = some document ∧ parts.Tells g document ∧ trace = g.trace :=
    Drafting.leads_pure (.inl ⟨absent, rfl, rfl⟩)
  cases r with
  | none => exact nothing rfl
  | some r =>
    by_cases kind : r.kind = .pod
    · have kind' : r.kind = (forPods parts.watched).kind := kind
      rw [native_of_kind kind']
      refine (leads_forPods mute r options shelf).bind ?_
      rintro d _ left ⟨g, rfl, rfl, makes, rfl⟩
      refine (Draft.leads_document d left).bind ?_
      rintro document _ _ ⟨shown, rfl⟩
      exact Drafting.leads_pure (.inr ⟨g, document, by simp [kind], rfl, rfl,
        PodParts.tells_of_makes makes shown, by simp⟩)
    · have kind' : r.kind ≠ (forPods parts.watched).kind := kind
      rw [native, draft, if_neg kind']
      exact nothing (by simp [kind])

/-- Every call comes with an account. -/
theorem leads_call (mute : parts.Mute) (call : Call) (shelf : Shelf) :
    Leads shelf ((forPods parts.watched).call call) fun answer trace _ => ∃ account : Account,
      parts.Accounts call account ∧ account.answer = answer ∧ trace = account.trace := by
  cases call with
  | generate r options =>
    refine (leads_native mute r options shelf).bind ?_
    rintro native trace left made
    refine ((mute_except (parts.projector.orchestrator r)).leads
      (Drafting.ensures_lift_except _) left).bind ?_
    rintro orchestrator _ _ ⟨known, rfl⟩
    rcases made with ⟨absent, rfl, rfl⟩ | ⟨g, document, pod, rfl, rfl, tells, rfl⟩
    · exact Drafting.leads_pure ⟨⟨none, none⟩, ⟨absent, rfl⟩, rfl, rfl⟩
    · obtain ⟨same, -⟩ := Option.filter_eq_some_iff.mp pod
      rw [same] at known
      exact Drafting.leads_pure ⟨⟨some _, some (g, document)⟩,
        ⟨pod, rfl, tells, orchestrator, known, rfl⟩, rfl, by simp [Account.trace]⟩
  | native r options =>
    refine (leads_native mute r options shelf).mono ?_
    rintro answer trace left (⟨absent, rfl, rfl⟩ | ⟨g, document, pod, rfl, rfl, tells, rfl⟩)
    · exact ⟨⟨none, none⟩, ⟨absent, rfl⟩, rfl, rfl⟩
    · exact ⟨⟨some document, some (g, document)⟩, ⟨pod, rfl, tells, rfl⟩, rfl, rfl⟩
  | fromName name options =>
    refine (leads_native mute _ options shelf).mono ?_
    rintro answer trace left (⟨absent, rfl, rfl⟩ | ⟨g, document, pod, rfl, rfl, tells, rfl⟩)
    · exact ⟨⟨none, none⟩, ⟨absent, rfl⟩, rfl, rfl⟩
    · exact ⟨⟨some document, some (g, document)⟩, ⟨pod, rfl, tells, rfl⟩, rfl, rfl⟩

/-- Calls one after the other come with one account each. -/
theorem leads_calls (mute : parts.Mute) (calls : List Call) (shelf : Shelf) :
    Leads shelf (calls.mapM (forPods parts.watched).call) fun answers trace _ =>
      ∃ accounts : List Account, List.Forall₂ parts.Accounts calls accounts ∧
        accounts.map (·.answer) = answers ∧ trace = accounts.flatMap (·.trace) := by
  induction calls generalizing shelf with
  | nil => exact Drafting.leads_pure ⟨[], .nil, rfl, rfl⟩
  | cons call rest ih =>
    rw [List.mapM_cons]
    refine (leads_call mute call shelf).bind ?_
    rintro answer _ left ⟨account, right, rfl, rfl⟩
    refine (ih left).bind ?_
    rintro answers _ last ⟨accounts, rights, rfl, rfl⟩
    exact Drafting.leads_pure ⟨account :: accounts, .cons right rights, rfl, by simp⟩

end Generator

/-! ## Counting -/

namespace Occurrence

/-- There are as many look-ups of a hop as questions to its peer. -/
def Balanced (hop : Hop) (trace : List Occurrence) : Prop :=
  (questions trace hop.via.field).length = lookups trace hop true + lookups trace hop false

theorem balanced_append {hop : Hop} {trace later : List Occurrence} (h : Balanced hop trace)
    (h' : Balanced hop later) : Balanced hop (trace ++ later) := by
  simp only [Balanced, questions, lookups, List.filterMap_append, List.length_append,
    List.countP_append] at h h' ⊢
  omega

theorem balanced_flatMap {α : Type} {hop : Hop} {items : List α} {trace : α → List Occurrence}
    (h : ∀ item ∈ items, Balanced hop (trace item)) : Balanced hop (items.flatMap trace) := by
  induction items with
  | nil => rfl
  | cons item rest ih =>
    rw [List.flatMap_cons]
    exact balanced_append (h item List.mem_cons_self)
      (ih fun item mem => h item (List.mem_cons_of_mem _ mem))

/-- A question to a peer that is no hop's. -/
theorem balanced_question {hop : Hop} {peer : Text} (other : peer ≠ hop.via.field) (options : Nat)
    (asked : Option Text) : Balanced hop (question peer options asked) := by
  cases asked with
  | none => rfl
  | some name => simp [Balanced, question, questions, lookups, isLookup, other]

theorem balanced_consultation (hop hop' : Hop) (consulted : Option Consultation) :
    Balanced hop (consulted.elim [] (·.trace hop')) := by
  cases consulted with
  | none => rfl
  | some c =>
    have own : Text.ofString hop'.via.field = hop.via.field ↔ hop' = hop := by
      cases hop <;> cases hop' <;> decide
    simp only [Option.elim_some, Consultation.trace, Balanced, questions, lookups,
      List.filterMap_cons, List.filterMap_nil, List.countP_cons, List.countP_nil, own]
    by_cases same : hop' = hop <;> cases c.owner? hop' <;> simp [isLookup, same]

theorem balanced_trace (hop : Hop) (account : Account) : Balanced hop account.trace := by
  obtain ⟨answer, made⟩ := account
  cases made with
  | none => rfl
  | some made =>
    have space : Text.ofString Kind.namespace.field ≠ hop.via.field := by cases hop <;> decide
    have node : Text.ofString Kind.node.field ≠ hop.via.field := by cases hop <;> decide
    exact balanced_append (balanced_question space 0 _)
      (balanced_append (balanced_consultation hop _ _)
        (balanced_append (balanced_consultation hop _ _) (balanced_question node 1 _)))

end Occurrence

/-- Calls of a pod generator, one after the other, each go as an account says: every native document
comes with the questions that its hops asked, once each and only where the base draft names a
controller, and with what was made of the answers. What is reported is what the accounts say, in
their order, so every question to the peer of a hop is one look-up, found or not. -/
theorem calls_account_for_hops {parts : PodParts} (mute : parts.Mute) {calls : List Call}
    {shelf : Shelf} {answers : List (Option Document)}
    (ran : ((calls.mapM (Generator.forPods parts.watched).call) shelf).1.result = .ok answers) :
    ∃ accounts : List Account, List.Forall₂ parts.Accounts calls accounts ∧
      accounts.map (·.answer) = answers ∧
      ((calls.mapM (Generator.forPods parts.watched).call) shelf).1.trace =
        accounts.flatMap (·.trace) ∧
      ∀ hop : Hop, (Occurrence.questions (accounts.flatMap (·.trace)) hop.via.field).length =
        Occurrence.lookups (accounts.flatMap (·.trace)) hop true +
          Occurrence.lookups (accounts.flatMap (·.trace)) hop false := by
  obtain ⟨accounts, right, same, reported⟩ := Generator.leads_calls mute calls shelf answers ran
  refine ⟨accounts, right, same, reported, fun hop => ?_⟩
  exact Occurrence.balanced_flatMap fun account _ => Occurrence.balanced_trace hop account

def webParts : PodParts where
  replicaSet := some (.always (some [("deployment", .named "web")]))
  hops := [.deployment]

theorem mute_webParts : webParts.Mute := by
  refine ⟨nofun, nofun, fun hop peer there => ?_⟩
  cases hop with
  | deployment =>
    cases there
    exact Peer.mute_always _
  | cronJob => cases there

/-- The pod's replica set is asked for in each of two calls, and found both times. -/
theorem calls_account_for_web :
    ∃ answers accounts,
      (([Call.native (some webPod) [], .generate (some webPod) []].mapM
        (Generator.forPods webParts.watched).call) {}).1.result = .ok answers ∧
      List.Forall₂ webParts.Accounts
        [Call.native (some webPod) [], .generate (some webPod) []] accounts ∧
      accounts.map (·.answer) = answers ∧
      accounts.flatMap (·.trace) = [.asked "replicaset" "web-a" 0, .ownerFound .deployment,
        .asked "replicaset" "web-a" 0, .ownerFound .deployment] := by
  have finishes : (([Call.native (some webPod) [], .generate (some webPod) []].mapM
      (Generator.forPods webParts.watched).call) {}).1.result.toBool := by decide +kernel
  have reported : (([Call.native (some webPod) [], .generate (some webPod) []].mapM
      (Generator.forPods webParts.watched).call) {}).1.trace =
      [.asked "replicaset" "web-a" 0, .ownerFound .deployment,
        .asked "replicaset" "web-a" 0, .ownerFound .deployment] := by decide +kernel
  cases ran : (([Call.native (some webPod) [], .generate (some webPod) []].mapM
      (Generator.forPods webParts.watched).call) {}).1.result with
  | error fault =>
    rw [ran] at finishes
    cases finishes
  | ok answers =>
    obtain ⟨accounts, right, same, trace, -⟩ := calls_account_for_hops mute_webParts ran
    exact ⟨answers, accounts, rfl, right, same, trace.symm.trans reported⟩

end ClusterMetadata
