/-
Log events that can be written.

The line of an event has its fields and a few texts.  In the log a value that JSON has no form for is
quoted, so the only thing that could keep a line from being written is a part that no layout accepts,
such as an integer that is too long.

* `LogEvent.Loggable` — an event whose fields can be written;
* `LogSetup.exists_lines` — such events have their lines.
-/
import Rollout.Log.Rendering
import Rollout.Proofs.Assoc
import Rollout.Proofs.Json.Writable

namespace Rollout

/-- An event whose fields can be written. -/
def LogEvent.Loggable (e : LogEvent) : Prop := ∀ field ∈ e.fields, Json.Writable field.2

namespace LogSetup

variable {members : Assoc String Value}

theorem writable_put (h : ∀ m ∈ members, Json.Writable m.2) (name : String) {v : Value}
    (hv : Json.Writable v) : ∀ m ∈ put name v members, Json.Writable m.2 :=
  Assoc.forall_insert h hv

theorem writable_erase (h : ∀ m ∈ members, Json.Writable m.2) (name : String) :
    ∀ m ∈ Assoc.erase name members, Json.Writable m.2 :=
  fun m hm => h m ((Assoc.erase_sublist name members).subset hm)

theorem writable_rename (h : ∀ m ∈ members, Json.Writable m.2) (name other : String) :
    ∀ m ∈ rename name other members, Json.Writable m.2 := by
  rw [rename]
  split
  · rename_i v hv
    obtain ⟨k, hk⟩ := Assoc.exists_mem_of_find? hv
    exact writable_put (writable_erase h name) other (h _ hk)
  · exact h

theorem writable_fieldMap {e : LogEvent} (h : e.Loggable) :
    ∀ m ∈ e.fieldMap, Json.Writable m.2 := by
  rw [LogEvent.fieldMap]
  refine Assoc.forall_insert (Assoc.forall_update ?_ h) (.text _)
  cases e.logger.filter (· != "") with
  | none => exact List.forall_mem_nil _
  | some name => exact List.forall_mem_singleton.mpr (.text name)

/-- The members of the line of an event can be written. -/
theorem writable_fields (setup : LogSetup) (time : String) {e : LogEvent} (h : e.Loggable) :
    ∀ m ∈ setup.fields time e, Json.Writable m.2 := by
  have hevent := writable_fieldMap h
  have hstamped : ∀ m ∈ (if setup.stamped then put "timestamp" (.text time) e.fieldMap
      else e.fieldMap), Json.Writable m.2 := by
    split
    · exact writable_put hevent _ (.text time)
    · exact hevent
  have hlevel := writable_erase (writable_put hstamped "level" (.text e.level.name)) "stack_info"
  exact writable_rename (writable_rename (Assoc.forall_insertNew hlevel (.text _)) _ _) _ _

theorem exists_line? (setup : LogSetup) (time : String) {e : LogEvent} (h : e.Loggable) :
    ∃ line, setup.line? time e = .ok line := by
  rw [line?]
  split
  · exact ⟨none, rfl⟩
  · have hmap : Json.Writable (.map ((setup.fields time e).map fun m => (.text m.1, m.2))) :=
      .map _ (List.forall_mem_map.mpr fun m _ => ⟨m.1, rfl⟩)
        (List.forall_mem_map.mpr (writable_fields setup time h))
    exact exists_map_eq_ok_iff.mpr (hmap.exists_write .log)

/-- Events with fields that can be written have their lines. -/
theorem exists_lines (setup : LogSetup) (time : String) {events : List LogEvent}
    (h : ∀ e ∈ events, e.Loggable) : ∃ lines, setup.lines time events = .ok lines := by
  induction events with
  | nil => exact ⟨[], rfl⟩
  | cons e rest ih =>
    obtain ⟨hfirst, hrest⟩ := List.forall_mem_cons.mp h
    obtain ⟨line, hline⟩ := setup.exists_line? time hfirst
    rw [lines, hline]
    exact exists_map_eq_ok_iff.mpr (ih hrest)

end LogSetup

end Rollout
