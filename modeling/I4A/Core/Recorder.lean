import I4A.Core.Machine

/-! # Machines with a record

A machine with something beside its state that every step updates from the state and the label it
starts with. The record never decides what the machine does.
-/

namespace I4A.Machine

variable {State Label Record : Type*} {M : Machine State Label}

def recording (M : Machine State Label) (note : State → Label → Record → Record) :
    Machine (State × Record) Label :=
  ⟨fun s l => (M.step s.1 l).map fun t => (t, note s.1 l s.2)⟩

variable {note : State → Label → Record → Record}

theorem recording_step {s t : State × Record} {l : Label} :
    (M.recording note).step s l = some t ↔ M.step s.1 l = some t.1 ∧ t.2 = note s.1 l s.2 := by
  obtain ⟨state, record⟩ := t
  simp only [recording, Option.map_eq_some_iff, Prod.mk.injEq]
  constructor
  · rintro ⟨u, hu, rfl, rfl⟩
    exact ⟨hu, rfl⟩
  · rintro ⟨hstep, rfl⟩
    exact ⟨state, hstep, rfl, rfl⟩

theorem Executes.forget {guard : State → Label → Prop} {s t : State × Record}
    (run : (M.recording note).Executes (fun s l => guard s.1 l) s t) :
    M.Executes guard s.1 t.1 := by
  induction run with
  | refl => exact .refl _
  | tail _ hg hs ih => exact ih.tail hg (recording_step.mp hs).1

end I4A.Machine
