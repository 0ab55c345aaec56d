import Retrace.Machine.Job

/-!
# Jobs carried out

What each kind of job leaves, and how jobs follow one another.
-/

namespace Retrace.Job

variable {α β : Type} (m : Machine)

@[simp] theorem perform_pure (a : α) : (pure a : Job α).perform m = (.ok a, m) := rfl

@[simp] theorem perform_throw (f : Failure) : (throw f : Job α).perform m = (.error f, m) := rfl

theorem perform_bind (t : Job α) (next : α → Job β) : (t >>= next).perform m =
    match t.perform m with
    | (.ok a, m') => (next a).perform m'
    | (.error f, m') => (.error f, m') := by
  unfold perform
  rw [ExceptT.run_bind]
  simp only [bind, StateT.bind]
  rcases ExceptT.run t m with ⟨f | a, m'⟩ <;> rfl

theorem perform_get : (get : Job Machine).perform m = (.ok m, m) := rfl

@[simp] theorem perform_ask (question : Machine → α) : (ask question).perform m = (.ok (question m), m) := rfl

@[simp] theorem perform_read (context : String) (question : Machine → Except IoError α) :
    (read context question).perform m =
      match question m with
      | .ok a => (.ok a, m)
      | .error e => (.error (.io context e), m) := by
  unfold read
  rw [perform_bind, perform_get]
  dsimp only
  cases question m <;> rfl

@[simp] theorem perform_change (context : String) (act : Machine → Except IoError Machine) :
    (change context act).perform m =
      match act m with
      | .ok m' => (.ok (), m')
      | .error e => (.error (.io context e), m) := by
  unfold change
  rw [perform_bind, perform_get]
  dsimp only
  cases act m <;> rfl

@[simp] theorem perform_makeAllDirs (context : String) (p : Path) :
    (makeAllDirs context p).perform m =
      match m.makeAllDirs p with
      | (m', .ok ()) => (.ok (), m')
      | (m', .error e) => (.error (.io context e), m') := by
  unfold makeAllDirs
  rw [perform_bind, perform_get]
  dsimp only
  rcases m.makeAllDirs p with ⟨m', e | u⟩ <;> rfl

@[simp] theorem perform_ofExcept (r : Except Failure α) : (ofExcept r).perform m = (r, m) := by
  cases r <;> rfl

end Retrace.Job
