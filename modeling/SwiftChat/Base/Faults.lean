import SwiftChat.Base.Interleave

/-! Programs whose actions may fail, each as a tape of faults says. -/
namespace Base
namespace Prog
variable {O F : Type} {R : O → Type} {S α : Type} {exec : (o : O) → S → S × R o}
  {fail : (o : O) → Option (F → S → S × R o)} {o : O} {next : R o → Prog O R α} {s : S}
  {φ : F → S → S × R o} {f : F} {tape : List (Option F)}

/-- The program on its own. Each action that can fail takes an entry of the tape: nothing, or the
fault it meets. After the tape nothing fails. -/
def runFaulty (exec : (o : O) → S → S × R o) (fail : (o : O) → Option (F → S → S × R o)) :
    Prog O R α → List (Option F) → S → S × α
  | .ret a, _, s => (s, a)
  | .act o next, tape, s =>
    match fail o with
    | none => (next (exec o s).2).runFaulty exec fail tape (exec o s).1
    | some φ =>
      match tape with
      | [] => (next (exec o s).2).runFaulty exec fail [] (exec o s).1
      | none :: tape => (next (exec o s).2).runFaulty exec fail tape (exec o s).1
      | some f :: tape => (next (φ f s).2).runFaulty exec fail tape (φ f s).1

@[simp] theorem runFaulty_ret (a : α) : (ret a : Prog O R α).runFaulty exec fail tape s = (s, a) := rfl

/-- An action that cannot fail takes nothing of the tape. -/
theorem runFaulty_sure (h : fail o = none) :
    (act o next).runFaulty exec fail tape s =
      (next (exec o s).2).runFaulty exec fail tape (exec o s).1 := by
  simp only [runFaulty, h]

theorem runFaulty_fault (h : fail o = some φ) :
    (act o next).runFaulty exec fail (some f :: tape) s =
      (next (φ f s).2).runFaulty exec fail tape (φ f s).1 := by
  simp only [runFaulty, h]

theorem runFaulty_works (h : fail o = some φ) :
    (act o next).runFaulty exec fail (none :: tape) s =
      (next (exec o s).2).runFaulty exec fail tape (exec o s).1 := by
  simp only [runFaulty, h]

@[simp] theorem runFaulty_end :
    (act o next).runFaulty exec fail [] s =
      (next (exec o s).2).runFaulty exec fail [] (exec o s).1 := by
  cases h : fail o with
  | none => simp only [runFaulty, h]
  | some φ => simp only [runFaulty, h]

/-- Without faults it is the run of the program. -/
theorem runFaulty_nil (p : Prog O R α) (s : S) : p.runFaulty exec fail [] s = p.run exec s := by
  induction p generalizing s with
  | ret a => rfl
  | act o next ih => rw [runFaulty_end, run_act, ih]

/-- An end of the tape without faults makes no difference. -/
theorem runFaulty_none (p : Prog O R α) (h : ∀ x ∈ tape, x = none) :
    p.runFaulty exec fail tape s = p.run exec s := by
  induction p generalizing s tape with
  | ret a => rfl
  | act o next ih =>
    rw [run_act]
    cases hfail : fail o with
    | none => rw [runFaulty_sure hfail, ih _ h]
    | some φ =>
      cases tape with
      | nil => rw [runFaulty_end, ih _ h]
      | cons x tape =>
        obtain rfl := h x List.mem_cons_self
        rw [runFaulty_works hfail, ih _ (fun y hy => h y (List.mem_cons_of_mem _ hy))]

/-- The program performs only actions of a kind. -/
def Uses (P : O → Prop) : Prog O R α → Prop
  | .ret _ => True
  | .act o next => P o ∧ ∀ r, (next r).Uses P

/-- What its actions keep, whether they work or fail, the program keeps. -/
theorem runFaulty_keeps {I : S → Prop} {P : O → Prop} (hexec : ∀ o s, P o → I s → I (exec o s).1)
    (hfail : ∀ o φ, fail o = some φ → ∀ f s, I s → I (φ f s).1) {p : Prog O R α} (hp : p.Uses P)
    (tape : List (Option F)) (h : I s) : I (p.runFaulty exec fail tape s).1 := by
  induction p generalizing s tape with
  | ret a => exact h
  | act o next ih =>
    cases hφ : fail o with
    | none =>
      rw [runFaulty_sure hφ]
      exact ih _ (hp.2 _) tape (hexec o s hp.1 h)
    | some φ =>
      rcases tape with _ | ⟨_ | f, tape⟩
      · rw [runFaulty_end]
        exact ih _ (hp.2 _) [] (hexec o s hp.1 h)
      · rw [runFaulty_works hφ]
        exact ih _ (hp.2 _) tape (hexec o s hp.1 h)
      · rw [runFaulty_fault hφ]
        exact ih _ (hp.2 _) tape (hfail o φ hφ f s h)

end Prog
end Base
