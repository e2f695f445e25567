import GuestAgent.Source.WaitForInput

/-!
What a window that is reported as stable has shown.

The turns of the loop since the handle last changed take the screenshots that count. A turn whose
screenshot is missing is taken for one that shows what the turn before it did; as long as there is
none, a reported window has stood still, or shows again and again what is known of it.

Polls and screenshots stand in lists that have the last one first.
-/
namespace GuestAgent.Guarantees.StableWindow
open Library Library.Polling Source

/-- The window of `m` is that of the poll before, so its screenshot is looked at. -/
abbrev Scanned (m : WindowPoll) (earlier : List WindowPoll) : Prop :=
  earlier.head?.map WindowPoll.wH = some m.wH

/-- A screenshot has been taken. -/
def Seen : List WindowPoll → Prop
  | [] => False
  | m :: earlier => Scanned m earlier ∧ m.hash ≠ none ∨ Seen earlier

/-- Once a screenshot has been taken, none is missing. -/
def Captured : List WindowPoll → Prop
  | [] => True
  | m :: earlier => (Scanned m earlier → Seen earlier → m.hash ≠ none) ∧ Captured earlier

/-- How often a frame counts, where every new frame makes all the counters start again at one. -/
def counted (frame : WString) : List (Option WString) → Nat
  | [] => 0
  | none :: earlier => counted frame earlier
  | some shown :: earlier =>
    if some shown ∈ earlier then counted frame earlier + (if frame = shown then 1 else 0)
    else if frame = shown ∨ some frame ∈ earlier then 1
    else 0

/-- The last polls, more than the threshold, all yielded one and the same screenshot. -/
def Still (recent : List WindowPoll) : Prop :=
  ∃ last earlier hash, recent = last ++ earlier ∧ loopThreshold < last.length ∧
    ∀ p ∈ last, p.hash = some hash

/-- Some frame counts more than the threshold. -/
def Looping (recent : List WindowPoll) : Prop :=
  ∃ frame, loopThreshold < counted frame (recent.map WindowPoll.hash)

/-- `window` is that of the last poll and of all since the one that reset the counters for it, and
those behind that one show it standing still or in a loop. -/
def Stable (polls : List WindowPoll) (window : IntPtr) : Prop :=
  ∃ recent reset earlier, polls = recent ++ reset :: earlier ∧
    (∀ p ∈ recent ++ [reset], p.wH = window) ∧ (∀ p ∈ earlier.head?, p.wH ≠ window) ∧
    (Still recent ∨ Looping recent)

/-! ### Frames -/

/-- The screenshots since the handle last changed. -/
def frames : List WindowPoll → List (Option WString)
  | [] => []
  | m :: earlier => if Scanned m earlier then m.hash :: frames earlier else []

theorem frames_scanned {m : WindowPoll} {earlier : List WindowPoll} (scanned : Scanned m earlier) :
    frames (m :: earlier) = m.hash :: frames earlier := by
  rw [frames, if_pos scanned]

theorem frames_split (m : WindowPoll) (earlier : List WindowPoll) :
    ∃ recent reset older, m :: earlier = recent ++ reset :: older ∧
      (∀ p ∈ recent ++ [reset], p.wH = m.wH) ∧ (∀ p ∈ older.head?, p.wH ≠ m.wH) ∧
      frames (m :: earlier) = recent.map WindowPoll.hash := by
  induction earlier generalizing m with
  | nil => exact ⟨[], m, [], rfl, by simp, by simp, by simp [frames]⟩
  | cons n earlier ih =>
    by_cases same : n.wH = m.wH
    · obtain ⟨recent, reset, older, split, handle, other, shown⟩ := ih n
      rw [same] at handle other
      refine ⟨m :: recent, reset, older, by rw [split, List.cons_append], ?_, other, ?_⟩
      · rw [List.cons_append, List.forall_mem_cons]
        exact ⟨rfl, handle⟩
      · rw [frames, if_pos (by simp [same]), shown, List.map_cons]
    · refine ⟨[], m, n :: earlier, rfl, by simp, by simpa using same, ?_⟩
      rw [frames, if_neg (by simpa using same), List.map_nil]

theorem counted_cons_of_mem {shown : WString} {earlier : List (Option WString)}
    (old : some shown ∈ earlier) (frame : WString) :
    counted frame (some shown :: earlier) =
      counted frame earlier + if frame = shown then 1 else 0 := by
  rw [counted, if_pos old]

theorem counted_pos {frame : WString} {shots : List (Option WString)}
    (shown : some frame ∈ shots) : 1 ≤ counted frame shots := by
  induction shots with
  | nil => cases shown
  | cons shot earlier ih =>
    cases shot with
    | none =>
      rw [counted]
      exact ih (by simpa using shown)
    | some other =>
      rw [List.mem_cons, Option.some.injEq] at shown
      by_cases old : some other ∈ earlier
      · rw [counted_cons_of_mem old]
        rcases shown with rfl | before
        · simp
        · have more := ih before
          omega
      · rw [counted, if_neg old, if_pos shown]

theorem counted_eq_zero {frame : WString} {shots : List (Option WString)}
    (absent : some frame ∉ shots) : counted frame shots = 0 := by
  induction shots with
  | nil => rfl
  | cons shot earlier ih =>
    rw [List.mem_cons, not_or] at absent
    cases shot with
    | none =>
      rw [counted]
      exact ih absent.2
    | some other =>
      have different : ¬ frame = other := by simpa using absent.1
      simp [counted, different, absent.2, ih absent.2]

/-! ### Counters -/

/-- No counter is ahead of the screenshots. -/
def Counts (d : FrameCounters) (shots : List (Option WString)) : Prop :=
  ∀ k ∈ d, some k.1 ∈ shots ∧ k.2 ≤ counted k.1 shots

theorem mem_of_containsKey {d : FrameCounters} {shots : List (Option WString)} {frame : WString}
    (counts : Counts d shots) (known : d.containsKey frame = true) : some frame ∈ shots := by
  obtain ⟨k, member, same⟩ := List.any_eq_true.mp known
  rw [← of_decide_eq_true same]
  exact (counts k member).1

theorem counts_shown {d : FrameCounters} {shots : List (Option WString)} {frame : WString}
    (counts : Counts d shots) (old : some frame ∈ shots) : Counts d (some frame :: shots) := by
  intro k member
  obtain ⟨inside, behind⟩ := counts k member
  refine ⟨List.mem_cons_of_mem _ inside, ?_⟩
  rw [counted_cons_of_mem old]
  omega

theorem counts_increment {d : FrameCounters} {shots : List (Option WString)} {frame : WString}
    (counts : Counts d shots) (known : d.containsKey frame = true) :
    Counts (d.increment frame) (some frame :: shots) := by
  have old := mem_of_containsKey counts known
  intro k member
  obtain ⟨before, present, rfl⟩ := List.mem_map.mp member
  by_cases same : before.1 = frame
  · obtain ⟨inside, behind⟩ := counts before present
    rw [if_pos same]
    refine ⟨List.mem_cons_of_mem _ inside, ?_⟩
    simp only [counted_cons_of_mem old, same, if_true] at behind ⊢
    omega
  · rw [if_neg same]
    exact counts_shown counts old before present

/-- A frame that is not in the dictionary is added to one without others, if it is a new frame. -/
theorem counts_add {d : FrameCounters} {shots : List (Option WString)} {frame : WString}
    (counts : Counts d shots) (fresh : some frame ∉ shots → d = []) :
    Counts (d.add frame 0) (some frame :: shots) := by
  intro k member
  rcases List.mem_append.mp member with old | new
  · by_cases shown : some frame ∈ shots
    · exact counts_shown counts shown k old
    · rw [fresh shown] at old
      cases old
  · rw [List.mem_singleton.mp new]
    exact ⟨List.mem_cons_self, Nat.zero_le _⟩

theorem counts_reset {d : FrameCounters} {shots : List (Option WString)} (counts : Counts d shots)
    (frame : WString) : Counts (d.add frame 1).reset (some frame :: shots) := by
  intro k member
  obtain ⟨before, present, rfl⟩ := List.mem_map.mp member
  have shown : some before.1 ∈ some frame :: shots := by
    rcases List.mem_append.mp present with old | new
    · exact List.mem_cons_of_mem _ (counts before old).1
    · rw [List.mem_singleton.mp new]
      exact List.mem_cons_self
  exact ⟨shown, counted_pos shown⟩

/-! ### The loop -/

theorem turn_waits {s s' : InputWait} {m : WindowPoll} (waits : s.turn m = .inl s') :
    m.wH ≠ 0 ∧
      (m.wH ≠ s.prevHandle ∧
          s' = { s with previousHashes := [], prevHandle := m.wH, stableScans := 0 } ∨
        m.wH = s.prevHandle ∧
          s' = { s with currentWindow := some m.wH }.scan m.wH m.hash) := by
  unfold InputWait.turn at waits
  split at waits
  · split at waits
    · cases waits
    · split at waits
      · cases waits
      · next some =>
        refine ⟨some, ?_⟩
        split at waits
        · next moved => exact .inl ⟨moved, (Sum.inl.inj waits).symm⟩
        · next same => exact .inr ⟨of_not_not same, (Sum.inl.inj waits).symm⟩
  · cases waits

theorem turn_returns {s : InputWait} {m : WindowPoll} {window : IntPtr}
    (returned : s.turn m = .inr (some window)) (running : m.timeout = false) :
    s.currentWindow = some window ∧
      (loopThreshold < s.stableScans ∨ ∃ k ∈ s.previousHashes, loopThreshold < k.2) := by
  unfold InputWait.turn at returned
  split at returned
  · split at returned
    · next looping =>
      exact ⟨Sum.inr.inj returned, .inr (by simpa using looping)⟩
    · split at returned
      · cases returned
      · split at returned <;> cases returned
  · next stops =>
    have scans : loopThreshold < s.stableScans := by simpa [running] using stops
    exact ⟨Sum.inr.inj returned, .inl scans⟩

/-- What the variables know of the polls, as long as no screenshot is missed. -/
structure Knows (polls : List WindowPoll) (s : InputWait) : Prop where
  handle : s.prevHandle = (polls.head?.map WindowPoll.wH).getD 0
  window : frames polls ≠ [] → s.currentWindow = some s.prevHandle
  still : (0 < s.stableScans → s.prevHash ≠ none) ∧
    ∃ rest, frames polls = List.replicate s.stableScans s.prevHash ++ rest
  seen : s.prevHash ≠ none → Seen polls
  first : s.prevWindow = none → s.prevHash = none
  nothing : s.prevHash = none → s.previousHashes = []
  counters : Counts s.previousHashes (frames polls)
  fresh : ∀ h, s.prevHash = some h → some h ∉ frames polls → s.previousHashes = []

theorem knows_start : Knows [] .start where
  handle := rfl
  window := by simp [frames]
  still := ⟨by simp [InputWait.start], [], rfl⟩
  seen := by simp [InputWait.start]
  first := by simp [InputWait.start]
  nothing := by simp [InputWait.start]
  counters := by simp [InputWait.start, Counts]
  fresh := by simp [InputWait.start]

theorem knows_moved {polls : List WindowPoll} {s : InputWait} {m : WindowPoll}
    (knows : Knows polls s) (moved : m.wH ≠ s.prevHandle) :
    Knows (m :: polls) { s with previousHashes := [], prevHandle := m.wH, stableScans := 0 } := by
  have other : ¬ Scanned m polls := by
    intro scanned
    rw [knows.handle, scanned] at moved
    exact moved rfl
  have shots : frames (m :: polls) = [] := by rw [frames, if_neg other]
  exact
    { handle := rfl
      window := fun more => absurd shots more
      still := ⟨by simp, [], shots⟩
      seen := fun known => .inr (knows.seen known)
      first := knows.first
      nothing := fun _ => rfl
      counters := by simp [Counts]
      fresh := fun _ _ _ => rfl }

/-- The first window is the first one to yield a screenshot. -/
theorem knows_first {polls : List WindowPoll} {s : InputWait} {m : WindowPoll}
    (knows : Knows polls s) (here : m.wH = s.prevHandle) (scanned : Scanned m polls)
    (none : s.prevHash = none) :
    Knows (m :: polls) ({ s with currentWindow := some m.wH }.first m.wH m.hash) := by
  have shots := frames_scanned scanned
  have empty := knows.nothing none
  have kept : ({ s with currentWindow := some m.wH }.first m.wH m.hash).prevHash = m.hash := rfl
  exact
    { handle := here.symm
      window := fun _ => congrArg some here
      still := ⟨by simp [InputWait.first], m.hash :: frames polls, shots⟩
      seen := fun known => .inl ⟨scanned, known⟩
      first := by simp [InputWait.first]
      nothing := fun missing => by
        rw [kept] at missing
        simpa [InputWait.first, missing] using empty
      counters := by
        rw [shots]
        cases shown : m.hash with
        | none => simp [InputWait.first, empty, Counts]
        | some hash => exact counts_reset knows.counters hash
      fresh := fun h same absent => by
        rw [kept] at same
        rw [shots, same] at absent
        exact absurd List.mem_cons_self absent }

theorem knows_changed {polls : List WindowPoll} {s : InputWait} {m : WindowPoll} {hash : WString}
    (knows : Knows polls s) (here : m.wH = s.prevHandle) (scanned : Scanned m polls)
    (shown : m.hash = some hash) :
    Knows (m :: polls) ({ s with currentWindow := some m.wH }.changed m.wH hash) := by
  have shots : frames (m :: polls) = some hash :: frames polls := by
    rw [frames_scanned scanned, shown]
  exact
    { handle := here.symm
      window := fun _ => congrArg some here
      still := ⟨by simp [InputWait.changed], some hash :: frames polls, shots⟩
      seen := fun _ => .inl ⟨scanned, by simp [shown]⟩
      first := by simp [InputWait.changed]
      nothing := by simp [InputWait.changed]
      counters := by
        rw [shots, InputWait.changed]
        simp only
        split
        · next known => exact counts_increment knows.counters known
        · exact counts_reset knows.counters hash
      fresh := fun h same absent => by
        cases same
        rw [shots] at absent
        exact absurd List.mem_cons_self absent }

theorem knows_unchanged {polls : List WindowPoll} {s : InputWait} {m : WindowPoll} {hash : WString}
    (knows : Knows polls s) (here : m.wH = s.prevHandle) (scanned : Scanned m polls)
    (shown : m.hash = some hash) (same : s.prevHash = some hash) (window : s.prevWindow ≠ none) :
    Knows (m :: polls) ({ s with currentWindow := some m.wH }.unchanged hash) := by
  have shots : frames (m :: polls) = some hash :: frames polls := by
    rw [frames_scanned scanned, shown]
  exact
    { handle := here.symm
      window := fun _ => congrArg some here
      still := by
        obtain ⟨-, rest, run⟩ := knows.still
        refine ⟨fun _ => by simp [InputWait.unchanged, same], rest, ?_⟩
        rw [shots, run, same]
        simp [InputWait.unchanged, List.replicate_succ]
      seen := fun known => .inr (knows.seen known)
      first := fun none => absurd none window
      nothing := fun none => by simp [InputWait.unchanged, same] at none
      counters := by
        rw [shots, InputWait.unchanged]
        simp only
        split
        · next known => exact counts_increment knows.counters known
        · exact counts_add knows.counters (knows.fresh hash same)
      fresh := fun h kept absent => by
        obtain rfl : hash = h := by simpa [InputWait.unchanged, same] using kept
        rw [shots] at absent
        exact absurd List.mem_cons_self absent }

theorem knows_adopted {polls : List WindowPoll} {s : InputWait} {m : WindowPoll}
    (knows : Knows polls s) (here : m.wH = s.prevHandle) (scanned : Scanned m polls)
    (none : s.prevHash = none) (window : s.prevWindow ≠ .none) :
    Knows (m :: polls)
      { s with currentWindow := some m.wH, prevHash := m.hash, stableScans := 0 } := by
  have shots := frames_scanned scanned
  have empty := knows.nothing none
  exact
    { handle := here.symm
      window := fun _ => congrArg some here
      still := ⟨by simp, m.hash :: frames polls, shots⟩
      seen := fun known => .inl ⟨scanned, known⟩
      first := fun missing => absurd missing window
      nothing := fun _ => empty
      counters := by simp [empty, Counts]
      fresh := fun _ _ _ => empty }

theorem knows_scan {polls : List WindowPoll} {s : InputWait} {m : WindowPoll}
    (knows : Knows polls s) (nonzero : m.wH ≠ 0) (here : m.wH = s.prevHandle)
    (captured : Scanned m polls → Seen polls → m.hash ≠ none) :
    Knows (m :: polls) ({ s with currentWindow := some m.wH }.scan m.wH m.hash) := by
  have scanned : Scanned m polls := by
    have handle := knows.handle
    rw [← here] at handle
    cases head : polls.head? with
    | none =>
      rw [head] at handle
      exact absurd handle nonzero
    | some p =>
      rw [head] at handle
      simp [head, handle]
  cases window : s.prevWindow with
  | none =>
    have first := knows_first knows here scanned (knows.first window)
    simpa [InputWait.scan, window] using first
  | some w =>
    have later : s.prevWindow ≠ none := by simp [window]
    cases before : s.prevHash with
    | none =>
      have adopted := knows_adopted knows here scanned before later
      simpa [InputWait.scan, window, before] using adopted
    | some prevHash =>
      -- a screenshot is known, so this one is not missing
      obtain ⟨hash, shown⟩ := Option.ne_none_iff_exists'.mp
        (captured scanned (knows.seen (by simp [before])))
      by_cases same : prevHash = hash
      · have unchanged := knows_unchanged knows here scanned shown (before.trans (by rw [same]))
          later
        simpa [InputWait.scan, window, before, shown, same] using unchanged
      · have changed := knows_changed knows here scanned shown
        simpa [InputWait.scan, window, before, shown, same] using changed

theorem knows_of_waits {polls : List WindowPoll} {s : InputWait} (captured : Captured polls)
    (waits : waitForInputRequested polls.reverse = .inl s) : Knows polls s := by
  have invariant : Captured polls → Knows polls s := by
    refine waits_invariant (fun polls s => Captured polls → Knows polls s)
      (fun _ => knows_start) ?_ waits
    intro seen before m after knows turned captured
    obtain ⟨here, earlier⟩ := captured
    obtain ⟨nonzero, ⟨moved, rfl⟩ | ⟨same, rfl⟩⟩ := turn_waits turned
    · exact knows_moved (knows earlier) moved
    · exact knows_scan (knows earlier) nonzero same here
  exact invariant captured

theorem still_of_frames {recent : List WindowPoll} {hash : WString} {n : Nat}
    {rest : List (Option WString)} (many : loopThreshold < n)
    (shots : recent.map WindowPoll.hash = List.replicate n (some hash) ++ rest) : Still recent := by
  obtain ⟨last, earlier, rfl, shown, -⟩ := List.map_eq_append_iff.mp shots
  have length : last.length = n := by simpa using congrArg List.length shown
  refine ⟨last, earlier, hash, rfl, by rwa [length], fun p member => ?_⟩
  exact List.eq_of_mem_replicate (shown ▸ List.mem_map_of_mem member)

/-- In every run in which no screenshot is missing once one was taken, a window that is returned
before the timeout is stable. -/
theorem returned_stable {polls : List WindowPoll} (last : WindowPoll) {window : IntPtr}
    (captured : Captured polls) (waits : (waitForInputRequested polls.reverse).isLeft = true)
    (returned : waitForInputRequested (polls.reverse ++ [last]) = .inr (some window))
    (running : last.timeout = false) : Stable polls window := by
  obtain ⟨s, waited⟩ := Sum.isLeft_iff.mp waits
  have knows := knows_of_waits captured waited
  rw [waitForInputRequested, poll_concat_of_waits waited] at returned
  obtain ⟨current, stable⟩ := turn_returns returned running
  have shots : frames polls ≠ [] := by
    rcases stable with scans | ⟨k, member, -⟩
    · obtain ⟨-, rest, run⟩ := knows.still
      intro none
      have length := congrArg List.length (none.symm.trans run)
      simp only [List.length_nil, List.length_append, List.length_replicate] at length
      omega
    · exact List.ne_nil_of_mem (knows.counters k member).1
  rw [knows.window shots, Option.some.injEq] at current
  cases polls with
  | nil => exact absurd rfl shots
  | cons m earlier =>
    obtain rfl : m.wH = window := knows.handle.symm.trans current
    obtain ⟨recent, reset, older, split, handle, other, shown⟩ :=
      frames_split m earlier
    refine ⟨recent, reset, older, split, handle, other, ?_⟩
    rcases stable with scans | ⟨k, member, many⟩
    · obtain ⟨known, rest, run⟩ := knows.still
      obtain ⟨hash, same⟩ := Option.ne_none_iff_exists'.mp (known (by omega))
      rw [same, shown] at run
      exact .inl (still_of_frames scans run)
    · have counts := (knows.counters k member).2
      rw [shown] at counts
      exact .inr ⟨k.1, Nat.lt_of_lt_of_le many counts⟩

/-- A window that stands still from the beginning. -/
theorem returned_stable_still :
    Stable (List.replicate 6 ⟨false, 1, some (wide "A0")⟩) 1 :=
  returned_stable ⟨false, 1, none⟩ (by simp [List.replicate, Captured]) (by decide)
    (by decide) rfl

/-- A window whose screenshots are all missing is taken for one that stands still, where another
window showed something before. -/
theorem unseen_window_returned : ¬ ∀ (polls : List WindowPoll) (last : WindowPoll)
    (window : IntPtr), (waitForInputRequested polls.reverse).isLeft = true →
    waitForInputRequested (polls.reverse ++ [last]) = .inr (some window) → last.timeout = false →
    Stable polls window := by
  intro all
  let polls : List WindowPoll := List.replicate 6 ⟨false, 2, none⟩ ++
    [⟨false, 1, some (wide "A0")⟩, ⟨false, 1, none⟩]
  obtain ⟨recent, reset, earlier, split, handle, -, stable⟩ :=
    all polls ⟨false, 2, none⟩ 2 (by decide) (by decide) rfl
  have unseen : ∀ p ∈ recent, p.hash = none := by
    intro p member
    have same := handle p (List.mem_append_left _ member)
    have inside : p ∈ polls := by
      rw [split]
      exact List.mem_append_left _ member
    have missing : ∀ q ∈ polls, q.wH = 2 → q.hash = none := by decide
    exact missing p inside same
  rcases stable with still | looping
  · obtain ⟨last, before, hash, rfl, many, shown⟩ := still
    obtain ⟨p, member⟩ := List.exists_mem_of_length_pos (Nat.zero_lt_of_lt many)
    have missing := unseen p (List.mem_append_left _ member)
    rw [shown p member] at missing
    cases missing
  · obtain ⟨frame, many⟩ := looping
    have absent : some frame ∉ recent.map WindowPoll.hash := by
      intro member
      obtain ⟨p, present, shown⟩ := List.mem_map.mp member
      rw [unseen p present] at shown
      cases shown
    rw [counted_eq_zero absent] at many
    cases many

end GuestAgent.Guarantees.StableWindow
