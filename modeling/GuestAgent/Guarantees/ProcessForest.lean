import Mathlib.Data.FinEnum
import GuestAgent.Source.ProcessTree

/-!
What `GetHierarchy` makes of a map from children to parents.

While the entries are linked, the nodes are a forest that agrees with the entries seen so far
(`Built`), whatever the order. The search for loops fails exactly if the next entry closes a
cycle, so linking ends with the forest of the whole map or, on a cycle, with the exception.
Rendering goes down this forest, which has no infinite descent, and asks for the version resource
of every module, so it fails where the file of one is gone.
-/
namespace GuestAgent.Guarantees.ProcessForest
open Relation Library Library.ParentMap Library.Watched Source Source.ProcessElement
  Source.ProcessHierarchy

/-! ### The nodes -/

theorem node?_eq_some {flat : FlatList} (nodup : flat.pids.Nodup) {p : Pid} {n : ProcessNode} :
    flat.node? p = some n ↔ n ∈ flat ∧ n.pid = p := by
  induction flat with
  | nil => simp [FlatList.node?]
  | cons first flat ih =>
    obtain ⟨fresh, nodup⟩ := List.nodup_cons.mp nodup
    have search : FlatList.node? (first :: flat) p =
        if first.pid = p then some first else FlatList.node? flat p := by
      by_cases here : first.pid = p <;> simp [FlatList.node?, here]
    rw [search]
    split
    next here =>
      constructor
      · intro same
        cases same
        exact ⟨List.mem_cons_self, here⟩
      · intro holds
        obtain ⟨member, pid⟩ := holds
        cases List.mem_cons.mp member with
        | inl same => rw [same]
        | inr later =>
          exact absurd (here.trans pid.symm ▸ List.mem_map_of_mem later) fresh
    next elsewhere =>
      rw [ih nodup, List.mem_cons]
      constructor
      · intro holds
        exact ⟨.inr holds.1, holds.2⟩
      · intro holds
        obtain ⟨member, pid⟩ := holds
        cases member with
        | inl same => exact absurd (same ▸ pid) elsewhere
        | inr later => exact ⟨later, pid⟩

theorem pids_modify (flat : FlatList) (p : Pid) {f : ProcessNode → ProcessNode}
    (keeps : ∀ n, (f n).pid = n.pid) : (flat.modify p f).pids = flat.pids := by
  rw [FlatList.pids, FlatList.modify, List.map_map]
  apply List.map_congr_left
  intro n _
  by_cases here : n.pid = p <;> simp [here, keeps]

/-- The nodes form the forest `parent`. -/
structure Built (infoOf : Pid → Except Exn ProcessInfo) (parent : Pid → Option Pid)
    (flat : FlatList) : Prop where
  nodup : flat.pids.Nodup
  parents : ∀ n ∈ flat, n.parent = parent n.pid
  children : ∀ n ∈ flat, n.children.Nodup ∧ ∀ c, c ∈ n.children ↔ parent c = some n.pid
  infos : ∀ n ∈ flat, infoOf n.pid = .ok n.info
  ends : ∀ c q, parent c = some q → c ∈ flat.pids ∧ q ∈ flat.pids
  acyclic : ¬ Cyclic parent

variable {infoOf : Pid → Except Exn ProcessInfo} {parent : Pid → Option Pid} {flat : FlatList}

variable (infoOf) in
theorem built_nil : Built infoOf (fun _ => none) [] where
  nodup := List.nodup_nil
  parents := by simp
  children := by simp
  infos := by simp
  ends := by simp
  acyclic := by
    intro cyclic
    obtain ⟨p, round⟩ := cyclic
    obtain ⟨q, step, -⟩ := TransGen.head'_iff.mp round
    cases step

namespace Built

theorem parent_eq_none (built : Built infoOf parent flat) {p : Pid} (new : p ∉ flat.pids) :
    parent p = none := by
  cases up : parent p with
  | none => rfl
  | some q => exact absurd (built.ends p q up).1 new

theorem parentOf_eq (built : Built infoOf parent flat) : flat.parentOf = parent := by
  funext p
  rw [FlatList.parentOf]
  cases known : flat.node? p with
  | none =>
    have new : p ∉ flat.pids := by
      intro member
      obtain ⟨n, inside, pid⟩ := List.mem_map.mp member
      rw [(node?_eq_some built.nodup).mpr ⟨inside, pid⟩] at known
      cases known
    rw [built.parent_eq_none new]
    rfl
  | some n =>
    obtain ⟨inside, pid⟩ := (node?_eq_some built.nodup).mp known
    rw [← pid, ← built.parents n inside]
    rfl

/-- A node for the pid is found or made, unless its information cannot be had. -/
theorem getOrAdd (built : Built infoOf parent flat) (p : Pid) :
    (∃ flat', flat.getOrAdd infoOf p = .ok flat' ∧ Built infoOf parent flat' ∧
      ∀ x, x ∈ flat'.pids ↔ x ∈ flat.pids ∨ x = p) ∨
    ∃ e, flat.getOrAdd infoOf p = .error (.other e) ∧ infoOf p = .error e := by
  by_cases known : p ∈ flat.pids
  · refine .inl ⟨flat, by rw [FlatList.getOrAdd, if_pos known], built, fun x => ?_⟩
    constructor
    · exact .inl
    · intro holds
      exact holds.elim id fun same => same ▸ known
  · cases info : infoOf p with
    | error e => exact .inr ⟨e, by rw [FlatList.getOrAdd, if_neg known, info], rfl⟩
    | ok i =>
      have noChild : ∀ c, parent c ≠ some p := fun c up => known (built.ends c p up).2
      have pids : FlatList.pids (flat ++ [⟨p, i, none, []⟩]) = flat.pids ++ [p] := by
        simp [FlatList.pids]
      refine .inl ⟨flat ++ [⟨p, i, none, []⟩], by rw [FlatList.getOrAdd, if_neg known, info], ?_,
        fun x => by rw [pids]; simp⟩
      constructor
      · rw [pids]
        exact List.nodup_append.mpr ⟨built.nodup, List.nodup_singleton p, by
          intro a member b single
          rw [List.mem_singleton.mp single]
          exact fun same => known (same ▸ member)⟩
      · intro n member
        cases List.mem_append.mp member with
        | inl old => exact built.parents n old
        | inr new =>
          obtain rfl := List.mem_singleton.mp new
          exact (built.parent_eq_none known).symm
      · intro n member
        cases List.mem_append.mp member with
        | inl old => exact built.children n old
        | inr new =>
          obtain rfl := List.mem_singleton.mp new
          exact ⟨List.nodup_nil, fun c => by simpa using noChild c⟩
      · intro n member
        cases List.mem_append.mp member with
        | inl old => exact built.infos n old
        | inr new =>
          obtain rfl := List.mem_singleton.mp new
          exact info
      · intro c q up
        obtain ⟨child, above⟩ := built.ends c q up
        rw [pids]
        exact ⟨List.mem_append_left _ child, List.mem_append_left _ above⟩
      · exact built.acyclic

section bindParent

variable {c q : Pid}

theorem bindParent_shape (built : Built infoOf parent flat) (root : parent c = none) :
    flat.bindParent c q =
      (flat.modify q fun n => { n with children := n.children ++ [c] }).modify c
        fun n => { n with parent := some q } := by
  have absent : flat.any (fun n => n.pid = q ∧ c ∈ n.children) = false := by
    rw [List.any_eq_false]
    intro n member
    rw [decide_eq_true_iff]
    intro holds
    rw [((built.children n member).2 c).mp holds.2] at root
    cases root
  rw [FlatList.bindParent, absent, if_neg (by simp)]

theorem bindParent_pids (built : Built infoOf parent flat) (root : parent c = none) :
    (flat.bindParent c q).pids = flat.pids := by
  rw [built.bindParent_shape root]
  exact (pids_modify _ c (by intro n; rfl)).trans (pids_modify flat q (by intro n; rfl))

/-- A node of the new list comes from one of the old list. -/
theorem bindParent_origin (built : Built infoOf parent flat) (root : parent c = none)
    (different : q ≠ c) {n : ProcessNode} (member : n ∈ flat.bindParent c q) :
    ∃ old ∈ flat, n.pid = old.pid ∧ n.info = old.info ∧
      n.parent = (if old.pid = c then some q else old.parent) ∧
      n.children = if old.pid = q then old.children ++ [c] else old.children := by
  rw [built.bindParent_shape root, FlatList.modify, FlatList.modify, List.map_map] at member
  obtain ⟨old, inside, same⟩ := List.mem_map.mp member
  refine ⟨old, inside, ?_⟩
  subst same
  by_cases isParent : old.pid = q
  · simp [isParent, different]
  · by_cases isChild : old.pid = c
    · simp [isChild, Ne.symm different]
    · simp [isParent, isChild]

/-- The children of a node, with the root that is hung under `q`. -/
theorem children_update (built : Built infoOf parent flat) (root : parent c = none)
    {old : ProcessNode} (inside : old ∈ flat) {children : List Pid}
    (bound : children = if old.pid = q then old.children ++ [c] else old.children) :
    children.Nodup ∧ ∀ d, d ∈ children ↔ Function.update parent c (some q) d = some old.pid := by
  obtain ⟨nodup, listed⟩ := built.children old inside
  have notYet : c ∉ old.children := by
    intro already
    rw [(listed c).mp already] at root
    cases root
  have update : ∀ d, Function.update parent c (some q) d = some old.pid ↔
      d = c ∧ old.pid = q ∨ d ∈ old.children := by
    intro d
    by_cases here : d = c
    · subst here
      rw [Function.update_self]
      simp [notYet, eq_comm]
    · rw [Function.update_of_ne here, listed d]
      simp [here]
  rw [bound]
  by_cases isParent : old.pid = q
  · rw [if_pos isParent]
    refine ⟨List.nodup_append.mpr ⟨nodup, List.nodup_singleton c, ?_⟩, fun d => ?_⟩
    · intro a member b single
      rw [List.mem_singleton.mp single]
      exact fun same => notYet (same ▸ member)
    · rw [update d]
      simp [isParent, or_comm]
  · rw [if_neg isParent]
    refine ⟨nodup, fun d => ?_⟩
    rw [update d]
    simp [isParent]

/-- Behind the search for loops: a root is hung under a node that is not below it. -/
theorem bindParent (built : Built infoOf parent flat) (child : c ∈ flat.pids)
    (above : q ∈ flat.pids) (root : parent c = none) (apart : ¬ Under parent q c) :
    Built infoOf (Function.update parent c (some q)) (flat.bindParent c q) := by
  have different : q ≠ c := fun same => apart (same ▸ .refl)
  constructor
  · rw [built.bindParent_pids root]
    exact built.nodup
  · intro n member
    obtain ⟨old, inside, pid, -, parents, -⟩ := built.bindParent_origin root different member
    rw [parents, pid]
    by_cases isChild : old.pid = c
    · rw [if_pos isChild, isChild, Function.update_self]
    · rw [if_neg isChild, Function.update_of_ne isChild]
      exact built.parents old inside
  · intro n member
    obtain ⟨old, inside, pid, -, -, children⟩ := built.bindParent_origin root different member
    rw [pid]
    exact built.children_update root inside children
  · intro n member
    obtain ⟨old, inside, pid, info, -, -⟩ := built.bindParent_origin root different member
    rw [pid, info]
    exact built.infos old inside
  · intro d r up
    rw [built.bindParent_pids root]
    by_cases here : d = c
    · subst here
      rw [Function.update_self] at up
      exact ⟨child, Option.some.inj up ▸ above⟩
    · rw [Function.update_of_ne here] at up
      exact built.ends d r up
  · rw [cyclic_attach_iff built.acyclic root]
    exact apart

end bindParent

/-- `SetParent` on a root hangs it under the node, unless that closes a cycle. -/
theorem setParent (built : Built infoOf parent flat) {c q : Pid} (child : c ∈ flat.pids)
    (above : q ∈ flat.pids) (root : parent c = none) :
    (∃ flat', Returns (fun m => flat.setParent m c q) (.ok flat') ∧
      Built infoOf (Function.update parent c (some q)) flat' ∧ flat'.pids = flat.pids) ∨
    Returns (fun m => flat.setParent m c q) (.error .circularLoop) ∧
      Cyclic (Function.update parent c (some q)) := by
  have search : ∀ found : Bool, (found = true ↔ Under parent q c) →
      Returns (fun m => flat.setParent m c q)
        (if found then .error .circularLoop else .ok (flat.bindParent c q)) := by
    intro found meaning
    have walk := climb_returns (ε := HierarchyError) built.acyclic meaning
    rw [← built.parentOf_eq] at walk
    apply walk.bind (s := fun b => if b then .error .circularLoop else .ok (flat.bindParent c q))
    intro b _
    exact returns_done _
  by_cases below : Under parent q c
  · refine .inr ⟨search true (by simp [below]), ?_⟩
    exact (cyclic_attach_iff built.acyclic root).mpr below
  · exact .inl ⟨flat.bindParent c q, search false (by simp [below]),
      built.bindParent child above root below, built.bindParent_pids root⟩

end Built

/-! ### Linking -/

/-- The parents once the entries are linked as well. -/
def extended (parent : Pid → Option Pid) (entries : List (Sigma fun _ : Pid => Pid)) :
    Pid → Option Pid :=
  fun p => (entries.dlookup p).or (parent p)

def Mentions (entries : List (Sigma fun _ : Pid => Pid)) (p : Pid) : Prop :=
  ∃ e ∈ entries, p = e.1 ∨ p = e.2

theorem extended_cons (e : Sigma fun _ : Pid => Pid)
    (entries : List (Sigma fun _ : Pid => Pid)) (fresh : e.1 ∉ entries.keys) :
    extended parent (e :: entries) =
      extended (Function.update parent e.1 (some e.2)) entries := by
  funext p
  rw [extended, extended]
  by_cases here : p = e.1
  · rw [here, List.dlookup_cons_eq, List.dlookup_eq_none.mpr fresh, Function.update_self]
    rfl
  · rw [List.dlookup_cons_ne _ _ here, Function.update_of_ne here]

theorem extended_mono {entries : List (Sigma fun _ : Pid => Pid)}
    (roots : ∀ e ∈ entries, parent e.1 = none) (c q : Pid) (step : IsParent parent c q) :
    IsParent (extended parent entries) c q := by
  have absent : entries.dlookup c = none := by
    rw [List.dlookup_eq_none]
    intro key
    obtain ⟨d, member⟩ := List.exists_of_mem_keys key
    rw [IsParent, roots ⟨c, d⟩ member] at step
    cases step
  rw [IsParent, extended, absent]
  exact step

/-- How linking some entries ends: with their forest, on a cycle, or at a process that cannot
be looked up. -/
inductive Linked (infoOf : Pid → Except Exn ProcessInfo) (known : List Pid)
    (parent : Pid → Option Pid) (entries : List (Sigma fun _ : Pid => Pid)) :
    Except HierarchyError FlatList → Prop
  | forest {flat : FlatList} (built : Built infoOf parent flat)
      (pids : ∀ x, x ∈ flat.pids ↔ x ∈ known ∨ Mentions entries x) :
      Linked infoOf known parent entries (.ok flat)
  | circular (cyclic : Cyclic parent) : Linked infoOf known parent entries (.error .circularLoop)
  | missing {p : Pid} {e : Exn} (mentioned : Mentions entries p) (error : infoOf p = .error e) :
      Linked infoOf known parent entries (.error (.other e))

theorem link_returns (built : Built infoOf parent flat) (e : Sigma fun _ : Pid => Pid)
    (root : parent e.1 = none) :
    ∃ r, Returns (fun m => FlatList.link m infoOf flat e) r ∧
      Linked infoOf flat.pids (Function.update parent e.1 (some e.2)) [e] r := by
  have child : Mentions [e] e.1 := ⟨e, by simp, .inl rfl⟩
  have above : Mentions [e] e.2 := ⟨e, by simp, .inr rfl⟩
  cases built.getOrAdd e.1 with
  | inr fails =>
    obtain ⟨x, stops, error⟩ := fails
    refine ⟨.error (.other x), ?_, .missing child error⟩
    simp only [FlatList.link, stops, done_bind_error]
    exact returns_done _
  | inl goes =>
    obtain ⟨first, one, builtOne, pidsOne⟩ := goes
    cases builtOne.getOrAdd e.2 with
    | inr fails =>
      obtain ⟨x, stops, error⟩ := fails
      refine ⟨.error (.other x), ?_, .missing above error⟩
      simp only [FlatList.link, one, stops, done_bind_ok, done_bind_error]
      exact returns_done _
    | inl goes =>
      obtain ⟨second, two, builtTwo, pidsTwo⟩ := goes
      simp only [FlatList.link, one, two, done_bind_ok]
      have childIn : e.1 ∈ second.pids := (pidsTwo _).mpr (.inl ((pidsOne _).mpr (.inr rfl)))
      cases builtTwo.setParent childIn ((pidsTwo _).mpr (.inr rfl)) root with
      | inl hung =>
        obtain ⟨flat', returns, next, pids⟩ := hung
        refine ⟨.ok flat', returns, .forest next fun x => ?_⟩
        rw [pids, pidsTwo, pidsOne]
        simp [Mentions, or_assoc]
      | inr loop => exact ⟨.error .circularLoop, loop.1, .circular loop.2⟩

theorem linkAll_returns (entries : List (Sigma fun _ : Pid => Pid)) (keys : entries.NodupKeys)
    (built : Built infoOf parent flat) (roots : ∀ e ∈ entries, parent e.1 = none) :
    ∃ r, Returns (fun m => entries.foldlM (FlatList.link m infoOf) flat) r ∧
      Linked infoOf flat.pids (extended parent entries) entries r := by
  induction entries generalizing parent flat with
  | nil => exact ⟨.ok flat, returns_done _, .forest built fun x => by simp [Mentions]⟩
  | cons e entries ih =>
    obtain ⟨fresh, keys⟩ := List.nodupKeys_cons.mp keys
    have later : ∀ e' ∈ entries, Function.update parent e.1 (some e.2) e'.1 = none := by
      intro e' member
      have other : e'.1 ≠ e.1 := by
        intro same
        exact fresh (same ▸ List.mem_keys_of_mem member)
      rw [Function.update_of_ne other]
      exact roots e' (List.mem_cons_of_mem e member)
    rw [extended_cons e entries fresh]
    simp only [List.foldlM_cons]
    obtain ⟨r, first, linked⟩ := link_returns built e (roots e (by simp))
    cases linked with
    | circular cyclic =>
      refine ⟨.error .circularLoop, ?_, .circular (cyclic.mono (extended_mono later))⟩
      apply first.bind (s := fun _ => .error .circularLoop)
      intro a same
      cases same
    | missing mentioned error =>
      obtain ⟨d, single, named⟩ := mentioned
      obtain rfl := List.mem_singleton.mp single
      refine ⟨.error (.other _), ?_, .missing ⟨d, by simp, named⟩ error⟩
      apply first.bind (s := fun _ => .error .circularLoop)
      intro a same
      cases same
    | forest next pids =>
      obtain ⟨r, rest, linked⟩ := ih keys next later
      refine ⟨r, ?_, ?_⟩
      · apply first.bind (s := fun _ => r)
        intro a same
        cases same
        exact rest
      · have mentions : ∀ x, Mentions (e :: entries) x ↔ Mentions [e] x ∨ Mentions entries x := by
          intro x
          simp [Mentions]
        cases linked with
        | circular cyclic => exact .circular cyclic
        | missing mentioned error => exact .missing ((mentions _).mpr (.inr mentioned)) error
        | forest built known =>
          refine .forest built fun x => ?_
          rw [known, pids, mentions, or_assoc]

/-! ### Rendering -/

/-- The elements show the forest `parent` below the given tops. -/
structure Shows (parent : Pid → Option Pid) (tops : List Pid) (es : List ProcessElement) :
    Prop where
  heads : es.map ProcessElement.pid = tops
  nodup : (pidsOf es).Nodup
  pids : ∀ x, x ∈ pidsOf es ↔ ∃ t ∈ tops, Under parent x t
  edges : ∀ q p, (q, p) ∈ edgesOf es ↔ parent p = some q ∧ ∃ t ∈ tops, Under parent q t

namespace Shows

theorem nil : Shows parent [] [] where
  heads := rfl
  nodup := List.nodup_nil
  pids := by simp [pidsOf]
  edges := by simp [edgesOf]

/-- An element with what is below its pid, put before elements that have none of that. -/
theorem cons {top : Pid} {tops : List Pid} {e : ProcessElement} {es : List ProcessElement}
    (first : Shows parent [top] [e]) (rest : Shows parent tops es)
    (apart : ∀ t ∈ tops, ∀ x, Under parent x top → ¬ Under parent x t) :
    Shows parent (top :: tops) (e :: es) := by
  have headPids : ∀ x, x ∈ e.pids ↔ Under parent x top := by
    intro x
    simpa [pidsOf] using first.pids x
  have headEdges : ∀ q p, (q, p) ∈ e.edges ↔ parent p = some q ∧ Under parent q top := by
    intro q p
    simpa [edgesOf] using first.edges q p
  constructor
  · have top : e.pid = top := by simpa using first.heads
    rw [List.map_cons, top, rest.heads]
  · rw [pidsOf]
    refine List.nodup_append.mpr ⟨by simpa [pidsOf] using first.nodup, rest.nodup, ?_⟩
    intro x here y there same
    subst same
    obtain ⟨t, member, under⟩ := (rest.pids x).mp there
    exact apart t member x ((headPids x).mp here) under
  · intro x
    rw [pidsOf, List.mem_append, headPids, rest.pids]
    simp
  · intro q p
    rw [edgesOf, List.mem_append, headEdges, rest.edges]
    simp only [List.mem_cons, exists_eq_or_imp]
    tauto

/-- The element of a node whose children are shown. -/
theorem process {p : Pid} {ppid : Option Pid} {info : XmlNode} {children : List Pid}
    {es : List ProcessElement} (shown : Shows parent children es) (acyclic : ¬ Cyclic parent)
    (listed : ∀ c, c ∈ children ↔ parent c = some p) :
    Shows parent [p] [.process p ppid info es] := by
  have below : ∀ x, Under parent x p ↔ x = p ∨ ∃ c ∈ children, Under parent x c := by
    intro x
    constructor
    · intro under
      cases under.cases_tail with
      | inl same => exact .inl same.symm
      | inr further =>
        obtain ⟨c, under, step⟩ := further
        exact .inr ⟨c, (listed c).mpr step, under⟩
    · intro holds
      cases holds with
      | inl same => exact same ▸ .refl
      | inr further =>
        obtain ⟨c, member, under⟩ := further
        exact under.tail ((listed c).mp member)
  constructor
  · rfl
  · rw [pidsOf, pidsOf, List.append_nil, ProcessElement.pids]
    refine List.nodup_cons.mpr ⟨fun member => ?_, shown.nodup⟩
    obtain ⟨c, child, under⟩ := (shown.pids p).mp member
    exact acyclic ⟨p, TransGen.tail' under ((listed c).mp child)⟩
  · intro x
    rw [pidsOf, pidsOf, List.append_nil, ProcessElement.pids, List.mem_cons, shown.pids]
    simp [below]
  · intro q x
    have own : (q, x) ∈ es.map (fun c => (p, c.pid)) ↔ parent x = some q ∧ q = p := by
      have kids : x ∈ es.map ProcessElement.pid ↔ parent x = some p := by
        rw [shown.heads]
        exact listed x
      constructor
      · intro member
        obtain ⟨c, inside, same⟩ := List.mem_map.mp member
        obtain ⟨rfl, rfl⟩ := Prod.mk.inj same
        exact ⟨kids.mp (List.mem_map_of_mem inside), rfl⟩
      · intro holds
        obtain ⟨up, rfl⟩ := holds
        obtain ⟨c, inside, same⟩ := List.mem_map.mp (kids.mpr up)
        exact List.mem_map.mpr ⟨c, inside, by rw [same]⟩
    rw [edgesOf, edgesOf, List.append_nil, ProcessElement.edges, List.mem_append, own, shown.edges]
    simp only [List.mem_singleton, exists_eq_left, below q]
    tauto

end Shows

/-- The information of the process and the element made from it can be had. -/
def Obtainable (infoOf : Pid → Except Exn ProcessInfo) (versionInfo : VersionInfo) (p : Pid) :
    Prop :=
  Completes (infoOf p >>= ProcessInfo.toXml versionInfo)

/-- How rendering ends: with the elements of the tops, or at a process below one of them whose
information cannot be had. -/
inductive Rendered (infoOf : Pid → Except Exn ProcessInfo) (versionInfo : VersionInfo)
    (parent : Pid → Option Pid) (tops : List Pid) :
    Except HierarchyError (List ProcessElement) → Prop
  | shown {es : List ProcessElement} (shows : Shows parent tops es)
      (obtained : ∀ t ∈ tops, ∀ x, Under parent x t → Obtainable infoOf versionInfo x) :
      Rendered infoOf versionInfo parent tops (.ok es)
  | failed {t x : Pid} {e : Exn} (member : t ∈ tops) (below : Under parent x t)
      (missing : ¬ Obtainable infoOf versionInfo x) :
      Rendered infoOf versionInfo parent tops (.error (.other e))

variable {versionInfo : VersionInfo}

/-- Nodes that have nothing below them in common are rendered one after the other. -/
theorem renderAll_returns {nodes : List ProcessNode}
    (each : ∀ n ∈ nodes, ∃ r, Returns (fun m => flat.toXml versionInfo m n) r ∧
      Rendered infoOf versionInfo parent [n.pid] (r.map fun e => [e]))
    (apart : nodes.Pairwise fun n k => ∀ x, Under parent x n.pid → ¬ Under parent x k.pid) :
    ∃ r, Returns (fun m => nodes.mapM (flat.toXml versionInfo m)) r ∧
      Rendered infoOf versionInfo parent (nodes.map ProcessNode.pid) r := by
  induction nodes with
  | nil => exact ⟨.ok [], returns_done _, .shown .nil (by simp)⟩
  | cons n nodes ih =>
    obtain ⟨here, apart⟩ := List.pairwise_cons.mp apart
    obtain ⟨first, returns, rendered⟩ := each n (by simp)
    obtain ⟨rest, others, remaining⟩ :=
      ih (fun k member => each k (List.mem_cons_of_mem n member)) apart
    simp only [List.mapM_cons]
    refine ⟨first >>= fun e => rest >>= fun es => .ok (e :: es), ?_, ?_⟩
    · apply returns.bind
      intro e _
      apply others.bind
      intro es _
      exact returns_done _
    · cases first with
      | error x =>
        cases rendered with
        | failed member below missing =>
          obtain rfl := List.mem_singleton.mp member
          exact .failed (by simp) below missing
      | ok e =>
        cases rendered with
        | shown shows obtained =>
          cases remaining with
          | failed member below missing =>
            exact .failed (List.mem_cons_of_mem _ member) below missing
          | shown behind obtainedToo =>
            refine .shown (shows.cons behind ?_) ?_
            · intro t member x under
              obtain ⟨k, inside, rfl⟩ := List.mem_map.mp member
              exact here k inside x under
            · intro t member
              cases List.mem_cons.mp member with
              | inl same => exact obtained t (same ▸ List.mem_singleton_self _)
              | inr later => exact obtainedToo t later

/-- The nodes a list of references leads to. -/
theorem Built.deref (built : Built infoOf parent flat) (pids : List Pid)
    (known : ∀ p ∈ pids, p ∈ flat.pids) :
    (pids.filterMap flat.node?).map ProcessNode.pid = pids ∧
      ∀ n ∈ pids.filterMap flat.node?, n ∈ flat := by
  constructor
  · induction pids with
    | nil => rfl
    | cons p pids ih =>
      obtain ⟨n, member, pid⟩ := List.mem_map.mp (known p (by simp))
      rw [List.filterMap_cons_some ((node?_eq_some built.nodup).mpr ⟨member, pid⟩), List.map_cons,
        pid, ih fun q later => known q (List.mem_cons_of_mem p later)]
  · intro n member
    obtain ⟨p, -, found⟩ := List.mem_filterMap.mp member
    exact ((node?_eq_some built.nodup).mp found).1

/-- The element of a process, if the elements of its children are known. -/
theorem Rendered.element {p : Pid} {children : List Pid} {info : Except Exn XmlNode}
    {r : Except HierarchyError (List ProcessElement)}
    (rendered : Rendered infoOf versionInfo parent children r) (acyclic : ¬ Cyclic parent)
    (up : Option Pid) (obtains : Obtainable infoOf versionInfo p ↔ Completes info)
    (listed : ∀ c, c ∈ children ↔ parent c = some p) :
    Rendered infoOf versionInfo parent [p]
      ((info.mapError .other >>= fun el => r >>= fun es => .ok (.process p up el es)).map
        fun e => [e]) := by
  cases info with
  | error e =>
    refine .failed (List.mem_singleton_self p) .refl ?_
    rw [obtains]
    exact not_completes_error e
  | ok el =>
    have own : Obtainable infoOf versionInfo p := by
      rw [obtains]
      exact completes_ok el
    cases rendered with
    | failed child below missing =>
      exact .failed (List.mem_singleton_self p) (below.tail ((listed _).mp child)) missing
    | @shown es shows obtained =>
      refine .shown (shows.process acyclic listed) ?_
      intro t single x under
      obtain rfl := List.mem_singleton.mp single
      cases under.cases_tail with
      | inl same => exact same ▸ own
      | inr further =>
        obtain ⟨c, under, step⟩ := further
        exact obtained c ((listed c).mpr step) x under

theorem toXml_returns (built : Built infoOf parent flat) (p : Pid) :
    ∀ n ∈ flat, n.pid = p → ∃ r, Returns (fun m => flat.toXml versionInfo m n) r ∧
      Rendered infoOf versionInfo parent [p] (r.map fun e => [e]) := by
  induction p using (wellFounded_child built.acyclic).induction with
  | _ p ih =>
    intro n member pid
    obtain ⟨nodup, listed⟩ := built.children n member
    rw [pid] at listed
    have obtains : Obtainable infoOf versionInfo p ↔ Completes (n.info.toXml versionInfo) := by
      rw [Obtainable, ← pid, built.infos n member]
      rfl
    obtain ⟨references, nodes⟩ := built.deref n.children
      (fun c child => (built.ends c p ((listed c).mp child)).1)
    have childOf : ∀ k ∈ n.children.filterMap flat.node?, parent k.pid = some p := by
      intro k inside
      rw [← listed, ← references]
      exact List.mem_map_of_mem inside
    have apart : (n.children.filterMap flat.node?).Pairwise
        fun k l => ∀ x, Under parent x k.pid → ¬ Under parent x l.pid := by
      rw [← references, List.Nodup, List.pairwise_map] at nodup
      refine nodup.imp_of_mem fun {k l} first second different x underFirst underSecond => ?_
      exact different (siblings_disjoint built.acyclic (childOf k first) (childOf l second)
        underFirst underSecond)
    obtain ⟨r, returns, rendered⟩ := renderAll_returns
      (fun k inside => ih k.pid (childOf k inside) k (nodes k inside) rfl) apart
    rw [references] at rendered
    refine ⟨(n.info.toXml versionInfo).mapError .other >>= fun info =>
      r >>= fun es => .ok (.process n.pid n.parent info es), ?_, ?_⟩
    · apply Returns.deeper (x := fun m => done ((n.info.toXml versionInfo).mapError .other) >>=
        fun info => (n.children.filterMap flat.node?).mapM (flat.toXml versionInfo m) >>=
          fun es => done (.ok (.process n.pid n.parent info es)))
      · apply (returns_done _).bind
        intro info _
        apply returns.bind
        intro es _
        exact returns_done _
      · intro m
        rfl
    · rw [← pid] at listed obtains ⊢
      exact rendered.element built.acyclic n.parent obtains listed

/-! ### The hierarchy -/

/-- The elements are the forest of the map: every pid of it once, and an element in another one
exactly where the map has that edge. -/
structure ForestOf (h : ProcessHierarchy) (roots : List ProcessElement) : Prop where
  once : (pidsOf roots).Nodup
  pids : ∀ p, p ∈ pidsOf roots ↔ Mentions h.processes.entries p
  edges : ∀ q p, (q, p) ∈ edgesOf roots ↔ h.processes.lookup p = some q

/-- How `GetHierarchy` ends: with the forest of the map, on a cycle, at a process that cannot be
looked up, or, below the roots of the forest, at one whose element cannot be made. -/
inductive Hierarchy (h : ProcessHierarchy) (procs : ProcessTable) (versionInfo : VersionInfo) :
    Except HierarchyError (List ProcessElement) → Prop
  | forest {roots : List ProcessElement} (acyclic : ¬ Cyclic h.processes.lookup)
      (obtained : ∀ p, Mentions h.processes.entries p →
        Obtainable (h.infoOf procs) versionInfo p)
      (forest : ForestOf h roots) : Hierarchy h procs versionInfo (.ok roots)
  | circular (cyclic : Cyclic h.processes.lookup) :
      Hierarchy h procs versionInfo (.error .circularLoop)
  | missing {p : Pid} {e : Exn} (mentioned : Mentions h.processes.entries p)
      (error : h.infoOf procs p = .error e) : Hierarchy h procs versionInfo (.error (.other e))
  | unrendered {p : Pid} {e : Exn} (acyclic : ¬ Cyclic h.processes.lookup)
      (mentioned : Mentions h.processes.entries p)
      (missing : ¬ Obtainable (h.infoOf procs) versionInfo p) :
      Hierarchy h procs versionInfo (.error (.other e))

theorem extended_none (entries : List (Sigma fun _ : Pid => Pid)) :
    extended (fun _ => none) entries = fun p => entries.dlookup p := by
  funext p
  rw [extended, Option.or_none]

/-- The nodes of a forest are what lies below its roots. -/
theorem Built.mem_pids_iff (built : Built infoOf parent flat) (x : Pid) :
    x ∈ flat.pids ↔ ∃ t ∈ FlatList.pids (flat.filter fun n => n.parent = none),
      Under parent x t := by
  constructor
  · intro known
    obtain ⟨r, root, under⟩ := exists_root built.acyclic x
    have inside : r ∈ flat.pids := by
      cases under.cases_tail with
      | inl same => exact same ▸ known
      | inr further =>
        obtain ⟨c, -, step⟩ := further
        exact (built.ends c r step).2
    obtain ⟨n, member, pid⟩ := List.mem_map.mp inside
    refine ⟨r, List.mem_map.mpr ⟨n, List.mem_filter.mpr ⟨member, ?_⟩, pid⟩, under⟩
    rw [decide_eq_true_iff, built.parents n member, pid]
    exact root
  · intro holds
    obtain ⟨t, top, under⟩ := holds
    cases under.cases_head with
    | inl same =>
      obtain ⟨n, member, pid⟩ := List.mem_map.mp top
      rw [same, ← pid]
      exact List.mem_map_of_mem (List.mem_filter.mp member).1
    | inr further =>
      obtain ⟨q, step, -⟩ := further
      exact (built.ends x q step).1

theorem renderRoots_returns (versionInfo : VersionInfo)
    (built : Built infoOf parent flat) :
    ∃ r, Returns (fun m => (flat.filter fun n => n.parent = none).mapM
        (flat.toXml versionInfo m)) r ∧
      Rendered infoOf versionInfo parent (FlatList.pids (flat.filter fun n => n.parent = none))
        r := by
  apply renderAll_returns
  · intro n member
    exact toXml_returns built n.pid n (List.mem_filter.mp member).1 rfl
  · have rootOf : ∀ n ∈ flat.filter (fun n => n.parent = none), parent n.pid = none := by
      intro n member
      obtain ⟨inside, root⟩ := List.mem_filter.mp member
      rw [← built.parents n inside]
      simpa using root
    have nodup : (FlatList.pids (flat.filter fun n => n.parent = none)).Nodup :=
      built.nodup.sublist (List.filter_sublist.map _)
    rw [FlatList.pids, List.Nodup, List.pairwise_map] at nodup
    refine nodup.imp_of_mem fun {n k} first second different x underFirst underSecond => ?_
    exact different (roots_disjoint (rootOf n first) (rootOf k second) underFirst underSecond)

theorem getHierarchy_returns (h : ProcessHierarchy) (procs : ProcessTable)
    (versionInfo : VersionInfo) :
    ∃ r, Returns (h.getHierarchy procs versionInfo) r ∧ Hierarchy h procs versionInfo r := by
  obtain ⟨linking, returns, linked⟩ := linkAll_returns
    h.processes.entries h.processes.nodupKeys (built_nil (h.infoOf procs)) (fun _ _ => rfl)
  rw [extended_none] at linked
  cases linked with
  | circular cyclic =>
    refine ⟨.error .circularLoop, ?_, .circular cyclic⟩
    apply returns.bind (s := fun _ => .error .circularLoop)
    intro flat same
    cases same
  | @missing p x mentioned error =>
    refine ⟨.error (.other x), ?_, .missing mentioned error⟩
    apply returns.bind (s := fun _ => .error .circularLoop)
    intro flat same
    cases same
  | @forest flat built pids =>
    have known : ∀ x, x ∈ flat.pids ↔ Mentions h.processes.entries x := by
      intro x
      simpa [FlatList.pids] using pids x
    obtain ⟨r, rendering, rendered⟩ := renderRoots_returns versionInfo built
    refine ⟨r, ?_, ?_⟩
    · apply returns.bind (s := fun _ => r)
      intro flat' same
      cases same
      exact rendering
    · cases rendered with
      | failed member below missing =>
        refine .unrendered built.acyclic ((known _).mp ?_) missing
        exact (built.mem_pids_iff _).mpr ⟨_, member, below⟩
      | shown shows obtained =>
        refine .forest built.acyclic ?_ ⟨shows.nodup, ?_, ?_⟩
        · intro p mentioned
          obtain ⟨t, member, under⟩ := (built.mem_pids_iff p).mp ((known p).mpr mentioned)
          exact obtained t member p under
        · intro p
          rw [shows.pids, ← built.mem_pids_iff, known]
        · intro q p
          rw [shows.edges, ← built.mem_pids_iff]
          constructor
          · exact And.left
          · intro up
            exact ⟨up, (built.ends p q up).2⟩

/-- `GetHierarchy` ends, with the exception exactly on a cycle and otherwise with the forest of the
map, whose edges the order of enumeration does not change. -/
structure BuildsForest (h : ProcessHierarchy) (procs : ProcessTable) (versionInfo : VersionInfo)
    (r : Except HierarchyError (List ProcessElement)) : Prop where
  returns : Returns (h.getHierarchy procs versionInfo) r
  circular : r = .error .circularLoop ↔ Cyclic h.processes.lookup
  forest : ¬ Cyclic h.processes.lookup → ∃ roots, r = .ok roots ∧ ForestOf h roots
  unordered : ∀ reordered : AList (fun _ : Pid => Pid),
    reordered.entries.Perm h.processes.entries → ∀ roots roots', r = .ok roots →
      Returns (getHierarchy { h with processes := reordered } procs versionInfo) (.ok roots') →
      ∀ e, e ∈ edgesOf roots ↔ e ∈ edgesOf roots'

/-- The edges are those of the map, in whatever order it is gone through. -/
theorem edges_unordered {h : ProcessHierarchy} {procs : ProcessTable} {versionInfo : VersionInfo}
    {roots : List ProcessElement} (forest : ForestOf h roots)
    {reordered : AList (fun _ : Pid => Pid)} (perm : reordered.entries.Perm h.processes.entries)
    {roots' : List ProcessElement}
    (other : Returns (getHierarchy { h with processes := reordered } procs versionInfo)
      (.ok roots')) (e : Pid × Pid) : e ∈ edgesOf roots ↔ e ∈ edgesOf roots' := by
  obtain ⟨q, p⟩ := e
  obtain ⟨r', returns', ends'⟩ :=
    getHierarchy_returns { h with processes := reordered } procs versionInfo
  obtain rfl := other.unique returns'
  cases ends' with
  | forest _ _ forest' => rw [forest.edges, forest'.edges, AList.perm_lookup perm]

/-- The modules whose files `ToXml` asks for their version resources. -/
def moduleFiles (info : ProcessInfo) : List ModuleInfo := info.mainModule.toList ++ info.modules

/-- The version resources of all modules in the stored or looked up information can be read. -/
def VersionsReadable (h : ProcessHierarchy) (procs : ProcessTable) (versionInfo : VersionInfo) :
    Prop :=
  ∀ p info, Mentions h.processes.entries p → h.infoOf procs p = .ok info →
    ∀ m ∈ moduleFiles info, Completes (versionInfo m.path)

theorem info_toXml_completes (versionInfo : VersionInfo) (info : ProcessInfo) :
    Completes (info.toXml versionInfo) ↔
      ∀ m ∈ moduleFiles info, Completes (versionInfo m.path) := by
  have one : ∀ m : ModuleInfo,
      Completes (m.toXml versionInfo) ↔ Completes (versionInfo m.path) := by
    intro m
    rw [ModuleInfo.toXml, completes_bind_pure]
  have modules : ∀ main : XmlNode,
      Completes ((info.modules.mapM (ModuleInfo.toXml versionInfo) >>= fun modules =>
        pure (.element (wide "ProcessInfo") []
          [.leaf (wide "WindowTitle") (info.mainWindowTitle.getD []), main,
            .element (wide "LoadedModules") [] modules])) : Except Exn XmlNode) ↔
        ∀ m ∈ info.modules, Completes (versionInfo m.path) := by
    intro main
    rw [completes_bind_pure, completes_mapM]
    simp only [one]
  cases main : info.mainModule with
  | none =>
    simp only [ProcessInfo.toXml, main, moduleFiles, Option.toList_none, List.nil_append]
    exact modules _
  | some m =>
    simp only [ProcessInfo.toXml, main, moduleFiles, Option.toList_some, List.singleton_append,
      List.forall_mem_cons, ← one m]
    rw [completes_bind]
    constructor
    · intro holds
      obtain ⟨node, made, rest⟩ := holds
      exact ⟨⟨node, made⟩, (modules node).mp rest⟩
    · intro holds
      obtain ⟨⟨node, made⟩, rest⟩ := holds
      exact ⟨node, made, (modules node).mpr rest⟩

theorem obtainable_iff {h : ProcessHierarchy} {procs : ProcessTable} {p : Pid}
    (obtained : Completes (h.infoOf procs p)) (versionInfo : VersionInfo) :
    Obtainable (h.infoOf procs) versionInfo p ↔ ∀ info, h.infoOf procs p = .ok info →
      ∀ m ∈ moduleFiles info, Completes (versionInfo m.path) := by
  obtain ⟨info, found⟩ := obtained
  rw [Obtainable, found]
  constructor
  · intro obtains info' same
    cases same
    exact (info_toXml_completes versionInfo info).mp obtains
  · intro readable
    exact (info_toXml_completes versionInfo info).mpr (readable info rfl)

/-- When all process infos can be obtained, `GetHierarchy` does what it should exactly if there is
a cycle, found before anything is rendered, or every module in them still has its file. -/
theorem builds_forest_iff (h : ProcessHierarchy) (procs : ProcessTable)
    (versionInfo : VersionInfo)
    (obtained : ∀ p, Mentions h.processes.entries p → Completes (h.infoOf procs p)) :
    (∃ r, BuildsForest h procs versionInfo r) ↔
      Cyclic h.processes.lookup ∨ VersionsReadable h procs versionInfo := by
  obtain ⟨r, returns, ends⟩ := getHierarchy_returns h procs versionInfo
  constructor
  · intro builds
    obtain ⟨r', builds⟩ := builds
    obtain rfl := builds.returns.unique returns
    by_cases cyclic : Cyclic h.processes.lookup
    · exact .inl cyclic
    · obtain ⟨roots, same, -⟩ := builds.forest cyclic
      subst same
      cases ends with
      | forest _ obtainable _ =>
        refine .inr fun p info mentioned found => ?_
        exact (obtainable_iff (obtained p mentioned) versionInfo).mp (obtainable p mentioned) info
          found
  · intro condition
    cases ends with
    | @forest roots acyclic obtainable forest =>
      refine ⟨.ok roots, returns, by simpa using acyclic, fun _ => ⟨roots, rfl, forest⟩, ?_⟩
      intro reordered perm roots₁ roots' same other
      cases same
      exact edges_unordered forest perm other
    | circular cyclic =>
      refine ⟨.error .circularLoop, returns, by simpa using cyclic, fun acyclic => ?_, ?_⟩
      · exact absurd cyclic acyclic
      · intro reordered perm roots roots' same
        cases same
    | missing mentioned error =>
      have found := obtained _ mentioned
      rw [error] at found
      exact absurd found (not_completes_error _)
    | unrendered acyclic mentioned missing =>
      rw [obtainable_iff (obtained _ mentioned) versionInfo] at missing
      cases condition with
      | inl cyclic => exact absurd cyclic acyclic
      | inr readable =>
        exact absurd (fun info found => readable _ info mentioned found) missing

/-- A process with a child and a grandchild. -/
def threeGenerations : ProcessHierarchy :=
  ⟨((∅ : AList fun _ : Pid => Pid).insert 12 11).insert 11 10, ∅⟩

/-- Every pid is alive, with the main module `C:\s.exe`. -/
def allAlive : ProcessTable :=
  ⟨fun _ => .ok 1, fun _ => .ok ⟨some ⟨wide "s.exe", wide "C:\\s.exe", none, none⟩, [], none⟩⟩

theorem builds_forest_generations :
    (∃ r, BuildsForest threeGenerations allAlive (fun _ => .ok []) r) ↔
      Cyclic threeGenerations.processes.lookup ∨
        VersionsReadable threeGenerations allAlive fun _ => .ok [] :=
  builds_forest_iff threeGenerations allAlive (fun _ => .ok []) fun _ _ => ⟨_, rfl⟩

theorem threeGenerations_acyclic : ¬ Cyclic threeGenerations.processes.lookup := by
  apply acyclic_of_rank UInt32.toNat
  intro p q up
  by_cases eleven : p = 11
  · subst eleven
    cases up
    decide
  · by_cases twelve : p = 12
    · subst twelve
      cases up
      decide
    · rw [IsParent, threeGenerations, AList.lookup_insert_ne eleven,
        AList.lookup_insert_ne twelve] at up
      cases up

/-- The information of all three can be had, but the file of their module is gone. -/
theorem deleted_module_no_forest :
    (∀ p, Mentions threeGenerations.processes.entries p →
      Completes (threeGenerations.infoOf allAlive p)) ∧
      ¬ ∃ r, BuildsForest threeGenerations allAlive (fun _ => .error .fileNotFound) r := by
  have obtained : ∀ p, Completes (threeGenerations.infoOf allAlive p) := fun _ => ⟨_, rfl⟩
  refine ⟨fun p _ => obtained p, fun builds => ?_⟩
  obtain ⟨r, builds⟩ := builds
  obtain ⟨roots, same, -⟩ := builds.forest threeGenerations_acyclic
  obtain ⟨r', returns, ends⟩ := getHierarchy_returns threeGenerations allAlive
    fun _ => .error .fileNotFound
  obtain rfl := builds.returns.unique returns
  subst same
  cases ends with
  | forest _ obtainable _ =>
    exact not_completes_error _ (obtainable 12 ⟨⟨12, 11⟩, by decide, .inl rfl⟩)

end GuestAgent.Guarantees.ProcessForest
