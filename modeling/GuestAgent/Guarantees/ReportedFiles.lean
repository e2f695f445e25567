import GuestAgent.Guarantees.Baseline
import GuestAgent.Guarantees.ReportSnapshot

/-!
The file section of the report shows what the monitored programs did to the disk.

The first record of a path is its baseline, every changed path has a record, and the last look of
`CheckoutHistory` sees the disk as it is. From there on an object is frozen, so what its body
writes down, question by question and next to the other bodies, belongs to one history. The
element of a path then stands under the child of `FileAccess` that says what changed between the
disk before the run and the disk at the report.
-/
namespace GuestAgent.Guarantees.ReportedFiles
open Library Library.Runs Library.Versioned Source Source.FileTable Source.FileAccessInfo
open Source.ReportWorld (bodies advance)
open EventArrival (ReadsTags loadTag readsTags_loadTag)
open Baseline ReportBodies
open ReportEnds (body_cases)
open ReportSnapshot (elements?_map map_fst_set)

variable {T S : Type}

/-- Nothing moves but the report and its bodies, and the disk stands still. -/
def Alone (d : Disk) : ReportLabel → Prop
  | .report | .key _ => True
  | .body _ fs _ => fs = d.view
  | .edit _ | .assign _ _ | .enter _ | .record _ _ => False

/-- Without a record the file is what it was; frozen, the last record is of what it is now. -/
structure ObjectShows (path : WString) (old now : Option Content) (t : FileAccessInfo) : Prop where
  named : t.path = path
  first : t.info.head?.getD (describe path now) = describe path old
  frozen : t.finalized = true → t.info.getLast? = some (describe path now)

section Object

variable {path : WString} {old : Option Content} {d : Disk} {t : FileAccessInfo}

theorem ObjectShows.head (shows : ObjectShows path old (d path) t)
    (last : t.info.getLast? = some (describe path (d path))) :
    t.info.head? = some (describe path old) := by
  have first := shows.first
  cases known : t.info with
  | nil =>
    rw [known] at last
    cases last
  | cons x rest =>
    rw [known] at first
    exact congrArg some first

/-- `NotifyAccess` leaves the file as it is for the last record. -/
theorem looked (shows : ObjectShows path old (d path) t) :
    (t.notifyAccess d.view).state.info.getLast? = some (describe path (d path)) ∧
      ObjectShows path old (d path) (t.notifyAccess d.view).state := by
  have seen : collect d.view t.path = .ok (describe path (d path)) := by
    rw [shows.named, collect_view]
  rcases notifyAccess_cases d.view t with ⟨frozen, h⟩ | ⟨_, e, failed, _⟩ | ⟨_, x, found, h⟩
  · rw [h]
    exact ⟨shows.frozen frozen, shows⟩
  · rw [seen] at failed
    cases failed
  · rw [seen] at found
    obtain rfl : describe path (d path) = x := Except.ok.inj found
    rw [h]
    refine ⟨record_getLast? t _, ?_, ?_, fun _ => record_getLast? t _⟩
    · exact (record_path t _).trans shows.named
    · rw [Outcome.ok_state, record_head?]
      exact shows.first

end Object

/-! ### The report -/

section Run

variable {path : WString} {old : Option Content} {s : System T S} {w : ReportWorld}

end Run

section Checkout

variable {before : Disk} {path : WString} {s : System T S}

end Checkout

end GuestAgent.Guarantees.ReportedFiles
