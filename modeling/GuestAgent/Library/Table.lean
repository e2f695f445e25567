import Mathlib.Data.List.Nodup

/-!
Tables whose keys are given out by a counter. The keys of the rows are distinct and below the
counter, so a key is never given out twice, whatever is deleted. Updates change cells, not keys.
-/
namespace GuestAgent.Library

structure Row (β : Type) where
  id : Nat
  cells : β
  deriving DecidableEq, Repr

@[ext] structure Table (β : Type) where
  rows : List (Row β)
  next : Nat
  below : ∀ row ∈ rows, row.id < next
  distinct : (rows.map Row.id).Nodup

namespace Table

variable {β : Type}

def empty : Table β := ⟨[], 1, nofun, .nil⟩

def insert (t : Table β) (cells : β) : Table β where
  rows := t.rows ++ [⟨t.next, cells⟩]
  next := t.next + 1
  below row member := by
    rcases List.mem_append.mp member with old | new
    · exact Nat.lt_succ_of_lt (t.below row old)
    · rw [List.mem_singleton.mp new]
      exact Nat.lt_succ_self _
  distinct := by
    rw [List.map_append, List.nodup_append]
    refine ⟨t.distinct, List.nodup_singleton _, ?_⟩
    intro old present new fresh
    obtain ⟨row, member, rfl⟩ := List.mem_map.mp present
    rw [List.map_singleton, List.mem_singleton] at fresh
    exact Nat.ne_of_lt (fresh ▸ t.below row member)

def delete (t : Table β) (p : Row β → Bool) : Table β where
  rows := t.rows.filter fun row => !p row
  next := t.next
  below row member := t.below row (List.mem_of_mem_filter member)
  distinct := t.distinct.sublist (List.filter_sublist.map Row.id)

def updateRow (p : Row β → Bool) (f : β → β) (row : Row β) : Row β :=
  if p row then { row with cells := f row.cells } else row

@[simp] theorem updateRow_id (p : Row β → Bool) (f : β → β) (row : Row β) :
    (updateRow p f row).id = row.id := by
  unfold updateRow
  split <;> rfl

def update (t : Table β) (p : Row β → Bool) (f : β → β) : Table β where
  rows := t.rows.map (updateRow p f)
  next := t.next
  below row member := by
    obtain ⟨old, present, rfl⟩ := List.mem_map.mp member
    rw [updateRow_id]
    exact t.below old present
  distinct := by
    have same : Row.id ∘ updateRow p f = Row.id := funext (updateRow_id p f)
    rw [List.map_map, same]
    exact t.distinct

section rows

variable (t : Table β) (p : Row β → Bool) (f : β → β) (cells : β)

@[simp] theorem insert_rows : (t.insert cells).rows = t.rows ++ [⟨t.next, cells⟩] := rfl

@[simp] theorem insert_next : (t.insert cells).next = t.next + 1 := rfl

@[simp] theorem delete_rows : (t.delete p).rows = t.rows.filter fun row => !p row := rfl

@[simp] theorem delete_next : (t.delete p).next = t.next := rfl

@[simp] theorem update_next : (t.update p f).next = t.next := rfl

end rows

/-- A key belongs to one row. -/
theorem eq_of_id {t : Table β} {row other : Row β} (member : row ∈ t.rows)
    (member' : other ∈ t.rows) (same : row.id = other.id) : row = other :=
  List.inj_on_of_nodup_map t.distinct member member' same

theorem mem_rows_of_countP_id {t : Table β} {id : Nat}
    (found : t.rows.countP (fun row => row.id == id) = 1) : ∃ row ∈ t.rows, row.id = id := by
  have positive : 0 < t.rows.countP fun row => row.id == id := by omega
  obtain ⟨row, member, same⟩ := List.countP_pos_iff.mp positive
  exact ⟨row, member, by simpa using same⟩

end Table

end GuestAgent.Library
