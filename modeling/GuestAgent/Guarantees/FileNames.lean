import GuestAgent.Source.FileTable

/-!
One file, one key. `NotifyFileRename` strips the prefix `\??\` from a path that has it and takes
any other path as it is. `NotifyFileAccess` starts from the empty path and fills it in only behind
the prefix, so a path without it is not tracked at all. The two agree on the paths that have the
prefix and something behind it.
-/
namespace GuestAgent.Guarantees.FileNames
open Library Source Source.FileTable

/-- `NotifyFileAccess(p)` tracks the file under `k`, and nothing else. -/
def AccessKey (p k : WString) : Prop :=
  ∀ (fs : FileSystem) (t : FileTable) (j : WString),
    (∃ r, (t.notifyFileAccess fs p).state.ref? j = some r) ↔ (∃ r, t.ref? j = some r) ∨ j = k

/-- `NotifyFileRename` from `p` moves the file found under `k`, or else stores a new one there. -/
def OldKey (p k : WString) : Prop :=
  ∀ (fs : FileSystem) (t : FileTable) (nPath : WString), nPath ≠ [] →
    (∀ r, t.ref? k = some r →
      (t.notifyFileRename fs p nPath).state.ref? (purge nPath) = some r) ∧
    (t.ref? k = none → (t.notifyFileRename fs p nPath).state.ref? k = some t.next)

/-- `NotifyFileRename` of a tracked file to `p` stores it under `k`. -/
def NewKey (p k : WString) : Prop :=
  ∀ (fs : FileSystem) (t : FileTable) (oPath : WString) (r : Ref), oPath ≠ [] →
    t.ref? (purge oPath) = some r → (t.notifyFileRename fs oPath p).state.ref? k = some r

/-- Access and rename use the key `k` for the file called `p`, and meet in one entry. -/
structure Meets (p k : WString) : Prop where
  access : AccessKey p k
  old : OldKey p k
  new : NewKey p k
  accessThenRename : ∀ (fs fs' : FileSystem) (t : FileTable) (nPath : WString), nPath ≠ [] →
    ∃ r ∈ notified fs p t,
      ((t.notifyFileAccess fs p).state.notifyFileRename fs' p nPath).state.ref? (purge nPath) =
        some r ∧
      ((t.notifyFileAccess fs p).state.notifyFileRename fs' p nPath).state.next =
        (t.notifyFileAccess fs p).state.next
  renameThenAccess : ∀ (fs fs' : FileSystem) (t : FileTable) (oPath : WString) (r : Ref),
    oPath ≠ [] → t.ref? (purge oPath) = some r →
    notified fs' p (t.notifyFileRename fs oPath p).state = [r] ∧
      ((t.notifyFileRename fs oPath p).state.notifyFileAccess fs' p).state.next =
        (t.notifyFileRename fs oPath p).state.next

/-! ### Renames -/

end GuestAgent.Guarantees.FileNames
