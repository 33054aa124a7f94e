import I4A.Core.Machine

/-! # Tasks over shared variables

An event handler creates tasks, which run interleaved until they end. When no task is created
while another one is alive there is never more than one, and what its steps preserve by
themselves holds in every interleaving with the handler.
-/

namespace I4A

/-- The shared variables, and where each task that is alive stands. -/
structure TaskPool (Shared Task : Type*) where
  shared : Shared
  tasks : List Task

/-- What the handler and a task do. -/
structure TaskProgram (Shared Task Event Act : Type*) where
  /-- The handler runs in one step and may create a task. -/
  handle : Shared → Event → Shared × Option Task
  /-- One step of a task; it ends where there is no next place. -/
  run : Shared → Task → Act → Option (Shared × Option Task)

inductive TaskLabel (Event Act : Type*) where
  | event (e : Event)
  | task (i : Nat) (a : Act)
  deriving DecidableEq

namespace TaskProgram

variable {Shared Task Event Act : Type*} (P : TaskProgram Shared Task Event Act)

def step (p : TaskPool Shared Task) : TaskLabel Event Act → Option (TaskPool Shared Task)
  | .event e =>
      let next := P.handle p.shared e
      some ⟨next.1, p.tasks ++ next.2.toList⟩
  | .task i a =>
      p.tasks[i]?.bind fun task =>
        (P.run p.shared task a).map fun next =>
          ⟨next.1, p.tasks.take i ++ next.2.toList ++ p.tasks.drop (i + 1)⟩

def machine : Machine (TaskPool Shared Task) (TaskLabel Event Act) := ⟨P.step⟩

/-- The handler creates no task while another one is alive. -/
def alone (p : TaskPool Shared Task) : TaskLabel Event Act → Bool
  | .event e => (P.handle p.shared e).2.isNone || p.tasks.isEmpty
  | .task _ _ => true

/-- One task at most, and a property of the shared variables and of this task. -/
def Single (Inv : Shared → Option Task → Prop) (p : TaskPool Shared Task) : Prop :=
  ∃ task : Option Task, p.tasks = task.toList ∧ Inv p.shared task

/-- The property is kept by the handler and by the steps of the only task. -/
structure Keeps (Inv : Shared → Option Task → Prop) : Prop where
  quiet : ∀ {s e task}, Inv s task → (P.handle s e).2 = none → Inv (P.handle s e).1 task
  create : ∀ {s e task}, Inv s none → (P.handle s e).2 = some task →
    Inv (P.handle s e).1 (some task)
  run : ∀ {s task a s' task'}, Inv s (some task) → P.run s task a = some (s', task') →
    Inv s' task'

variable {P} {Inv : Shared → Option Task → Prop} {p q : TaskPool Shared Task}
  {l : TaskLabel Event Act}

theorem Single.event (keeps : P.Keeps Inv) (inv : Single Inv p) {e : Event}
    (halone : P.alone p (.event e) = true) (h : P.step p (.event e) = some q) :
    Single Inv q := by
  obtain ⟨task, htasks, hinv⟩ := inv
  cases h
  cases hnew : (P.handle p.shared e).2 with
  | none =>
      refine ⟨task, ?_, keeps.quiet hinv hnew⟩
      show p.tasks ++ [] = task.toList
      rw [List.append_nil, htasks]
  | some new =>
      have hempty : p.tasks = [] := by
        simpa only [alone, hnew, Option.isNone_some, Bool.false_or, List.isEmpty_iff] using halone
      have hnone : task = none := by
        rw [hempty] at htasks
        exact Option.toList_eq_nil_iff.mp htasks.symm
      subst hnone
      refine ⟨some new, ?_, keeps.create hinv hnew⟩
      show p.tasks ++ [new] = [new]
      rw [hempty, List.nil_append]

theorem Single.task (keeps : P.Keeps Inv) (inv : Single Inv p) {i : Nat} {a : Act}
    (h : P.step p (.task i a) = some q) : Single Inv q := by
  obtain ⟨only, htasks, hinv⟩ := inv
  obtain ⟨task, htask, hnext⟩ := Option.bind_eq_some_iff.mp h
  obtain ⟨next, hrun, rfl⟩ := Option.map_eq_some_iff.mp hnext
  rw [htasks] at htask
  cases only with
  | none => cases htask
  | some task' =>
      have hi : i = 0 := by
        have hlt := (List.getElem?_eq_some_iff.mp htask).choose
        rw [Option.toList_some, List.length_singleton] at hlt
        omega
      subst hi
      cases htask
      refine ⟨next.2, ?_, keeps.run hinv hrun⟩
      show p.tasks.take 0 ++ next.2.toList ++ p.tasks.drop 1 = next.2.toList
      rw [htasks]
      exact List.append_nil _

theorem Single.step (keeps : P.Keeps Inv) (inv : Single Inv p) (halone : P.alone p l = true)
    (h : P.step p l = some q) : Single Inv q := by
  cases l with
  | event e => exact inv.event keeps halone h
  | task i a => exact inv.task keeps h

theorem Single.length_le (inv : Single Inv p) : p.tasks.length ≤ 1 := by
  obtain ⟨task, htasks, -⟩ := inv
  rw [htasks]
  exact Option.length_toList_le

/-- A task that is created while another one is alive makes two. -/
theorem alone_of_length_le (h : P.step p l = some q) (hle : q.tasks.length ≤ 1) :
    P.alone p l = true := by
  cases l with
  | event e =>
      cases h
      rw [List.length_append] at hle
      rw [alone, Bool.or_eq_true, Option.isNone_iff_eq_none, List.isEmpty_iff]
      cases hnew : (P.handle p.shared e).2 with
      | none => exact .inl rfl
      | some new =>
          right
          rw [hnew, Option.toList_some, List.length_singleton] at hle
          exact List.length_eq_zero_iff.mp (by omega)
  | task i a => rfl

end TaskProgram

end I4A
