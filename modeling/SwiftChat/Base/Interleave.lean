import SwiftChat.Base.Run
import Mathlib.Logic.Function.Basic

/-! Calls that work on one shared state and take turns, one atomic action at a time. -/
namespace Base
variable {O : Type} {R : O → Type} {S α β ι L : Type} {exec : (o : O) → S → S × R o}

/-- A program has an answer, or performs an action and goes on with the reply. -/
inductive Prog (O : Type) (R : O → Type) (α : Type) where
  | ret (a : α)
  | act (o : O) (next : R o → Prog O R α)

namespace Prog

/-- The program on its own, without interruption. -/
def run (exec : (o : O) → S → S × R o) : Prog O R α → S → S × α
  | .ret a, s => (s, a)
  | .act o next, s => (next (exec o s).2).run exec (exec o s).1

@[simp] theorem run_ret (a : α) (s : S) : (ret a : Prog O R α).run exec s = (s, a) := rfl

@[simp] theorem run_act (o : O) (next : R o → Prog O R α) (s : S) :
    (act o next).run exec s = (next (exec o s).2).run exec (exec o s).1 := rfl

def answer : Prog O R α → Option α
  | .ret a => some a
  | .act _ _ => none

section
variable {note : L → (Σ o, R o) → L} {P : L → (o : O) → (R o → Prog O R α) → Prop}
  {Q : L → α → Prop} {l : L}

/-- The program keeps to a rule that looks at what it noted of its own actions: `P` says what it may
do next and `Q` what it may answer. -/
def Follows (note : L → (Σ o, R o) → L) (P : L → (o : O) → (R o → Prog O R α) → Prop)
    (Q : L → α → Prop) : Prog O R α → L → Prop
  | .ret a, l => Q l a
  | .act o next, l => P l o next ∧ ∀ r, (next r).Follows note P Q (note l ⟨o, r⟩)

@[simp] theorem follows_ret {a : α} : (ret a : Prog O R α).Follows note P Q l ↔ Q l a := Iff.rfl

theorem follows_act {o : O} {next : R o → Prog O R α} :
    (act o next).Follows note P Q l ↔
      P l o next ∧ ∀ r, (next r).Follows note P Q (note l ⟨o, r⟩) := Iff.rfl

end

end Prog

/-- The shared state, what is left of each call, and what was done so far, latest first. -/
structure Config (O : Type) (R : O → Type) (S α ι : Type) where
  state : S
  calls : ι → Prog O R α
  log : List (ι × (Σ o, R o)) := []
  finished : List ι := []

namespace Config
variable [DecidableEq ι]

/-- One call performs its next action. -/
def perform (exec : (o : O) → S → S × R o) (c : Config O R S α ι) (i : ι) (o : O)
    (next : R o → Prog O R α) : Config O R S α ι :=
  let (s, r) := exec o c.state
  { state := s
    calls := Function.update c.calls i (next r)
    log := (i, ⟨o, r⟩) :: c.log
    finished := if (next r).answer.isSome then i :: c.finished else c.finished }

/-- A call that has its answer does nothing any more. -/
def tick (exec : (o : O) → S → S × R o) (c : Config O R S α ι) (i : ι) : Config O R S α ι :=
  match c.calls i with
  | .ret _ => c
  | .act o next => c.perform exec i o next

def answer (c : Config O R S α ι) (i : ι) : Option α := (c.calls i).answer

def Returned (c : Config O R S α ι) : Prop := ∀ i, (c.answer i).isSome = true

/-- What one call noted of its own actions. -/
def noted (note : L → (Σ o, R o) → L) (l : L) (i : ι) : List (ι × (Σ o, R o)) → L
  | [] => l
  | (j, e) :: log => if j = i then note (noted note l i log) e else noted note l i log

/-- What can be made of the answers given so far, latest first. -/
def answers (c : Config O R S α ι) (f : ι → α → Option β) : List β :=
  c.finished.filterMap fun i => (c.answer i).bind (f i)

variable {c : Config O R S α ι} {i j : ι} {o : O} {next : R o → Prog O R α}
  {note : L → (Σ o, R o) → L} {l : L}

@[simp] theorem perform_state :
    (c.perform exec i o next).state = (exec o c.state).1 := rfl

theorem perform_calls_self :
    (c.perform exec i o next).calls i = next (exec o c.state).2 := Function.update_self ..

theorem perform_calls_ne (h : j ≠ i) : (c.perform exec i o next).calls j = c.calls j :=
  Function.update_of_ne h ..

/-- The call has just got its answer, or the list of those that have is what it was. -/
theorem perform_finished :
    (c.perform exec i o next).finished =
      if ((c.perform exec i o next).answer i).isSome then i :: c.finished else c.finished := by
  rw [answer, perform_calls_self]
  rfl

theorem noted_perform_self :
    noted note l i (c.perform exec i o next).log =
      note (noted note l i c.log) ⟨o, (exec o c.state).2⟩ := if_pos rfl

theorem noted_perform_ne (h : j ≠ i) :
    noted note l j (c.perform exec i o next).log = noted note l j c.log := if_neg h.symm

/-- Each call is at a stage that fits its program: a turn changes the stage of its own call only. -/
theorem stages_perform {T : Type} {P : ι → T → Prog O R α → Prop} {σ : ι → T} {t : T}
    (h : ∀ j, P j (σ j) (c.calls j)) (hi : P i t (next (exec o c.state).2)) (j : ι) :
    P j (Function.update σ i t j) ((c.perform exec i o next).calls j) := by
  by_cases hj : j = i
  · subst hj
    rw [Function.update_self, perform_calls_self]
    exact hi
  · rw [Function.update_of_ne hj, perform_calls_ne hj]
    exact h j

/-- Every call keeps to its rule while the others have their turns. -/
theorem follows_perform {P : ι → L → (o : O) → (R o → Prog O R α) → Prop} {Q : ι → L → α → Prop}
    (h : ∀ j, (c.calls j).Follows note (P j) (Q j) (noted note l j c.log))
    (hcall : c.calls i = .act o next) (j : ι) :
    ((c.perform exec i o next).calls j).Follows note (P j) (Q j)
      (noted note l j (c.perform exec i o next).log) := by
  by_cases hj : j = i
  · subst hj
    have hi := h j
    rw [hcall, Prog.follows_act] at hi
    rw [perform_calls_self, noted_perform_self]
    exact hi.2 _
  · rw [perform_calls_ne hj, noted_perform_ne hj]
    exact h j

/-- Those that are listed as finished have their answer. -/
def FinishedOk (c : Config O R S α ι) : Prop := ∀ j ∈ c.finished, (c.answer j).isSome = true

theorem FinishedOk.perform (h : c.FinishedOk) (hcall : c.calls i = .act o next) :
    (c.perform exec i o next).FinishedOk := by
  intro j hj
  by_cases hji : j = i
  · subst hji
    rw [perform_finished] at hj
    by_cases ha : ((c.perform exec j o next).answer j).isSome = true
    · exact ha
    · rw [if_neg ha] at hj
      have hold := h j hj
      rw [answer, hcall] at hold
      cases hold
  · have hold : j ∈ c.finished := by
      rw [perform_finished] at hj
      split at hj
      · exact (List.mem_cons.mp hj).resolve_left hji
      · exact hj
    rw [answer, perform_calls_ne hji]
    exact h j hold

/-- The answer of an action that ends its call comes first. -/
theorem answers_perform {f : ι → α → Option β} (h : c.FinishedOk) (hcall : c.calls i = .act o next) :
    (c.perform exec i o next).answers f =
      ((next (exec o c.state).2).answer.bind (f i)).toList ++ c.answers f := by
  have hsame : c.finished.filterMap (fun j => ((c.perform exec i o next).answer j).bind (f j)) =
      c.answers f := by
    refine List.filterMap_congr ?_
    intro j hj
    have hne : j ≠ i := by
      rintro rfl
      have hold := h j hj
      rw [answer, hcall] at hold
      cases hold
    rw [answer, perform_calls_ne hne, ← answer]
  have hself : (c.perform exec i o next).answer i = (next (exec o c.state).2).answer := by
    rw [answer, perform_calls_self]
  rw [answers, perform_finished, hself]
  cases ha : (next (exec o c.state).2).answer with
  | none =>
    rw [if_neg (by simp), hsame]
    rfl
  | some a =>
    rw [if_pos Option.isSome_some, List.filterMap_cons, hself, ha, hsame]
    cases hf : (some a).bind (f i) with
    | none => rfl
    | some b => rfl

/-- What every action under the condition keeps, a turn keeps. -/
theorem tick_of_perform {I : Config O R S α ι → Prop} {C : Config O R S α ι → ι → Prop}
    (hstep : ∀ c i o next, I c → c.calls i = .act o next → C c i → I (c.perform exec i o next))
    (hc : I c) (hi : C c i) : I (c.tick exec i) := by
  unfold tick
  cases hcall : c.calls i with
  | ret a => exact hc
  | act o next => exact hstep c i o next hc hcall hi

/-- It then holds after every such schedule. -/
theorem always_of_perform {I : Config O R S α ι → Prop} {C : Config O R S α ι → ι → Prop}
    {schedule : List ι}
    (hstep : ∀ c i o next, I c → c.calls i = .act o next → C c i → I (c.perform exec i o next))
    (hstart : I c) (hcond : AllSteps (tick exec) C c schedule) :
    Always (tick exec) I c schedule :=
  always_of_allSteps (fun _ _ hc hi => tick_of_perform hstep hc hi) hstart hcond

/-! Calls that each have one check to pass, and whether two of them pass it. -/

section Passing
variable {passes : ι → (Σ o, R o) → Bool} {schedule : List ι}

/-- The call has got a reply that lets it pass. -/
def hasPassed (passes : ι → (Σ o, R o) → Bool) (c : Config O R S α ι) (i : ι) : Bool :=
  c.log.any fun e => e.1 = i ∧ passes i e.2

/-- A call that has passed after its turn finds no other call that has. -/
def OneAtATime (exec : (o : O) → S → S × R o) (passes : ι → (Σ o, R o) → Bool)
    (c : Config O R S α ι) (i : ι) : Prop :=
  hasPassed passes (c.tick exec i) i = true → ∀ j, hasPassed passes c j = true → j = i

instance {n : Nat} (passes : Fin n → (Σ o, R o) → Bool) (c : Config O R S α (Fin n)) (i : Fin n) :
    Decidable (OneAtATime exec passes c i) :=
  inferInstanceAs (Decidable (_ → ∀ j, hasPassed passes c j = true → j = i))

def PassedOnce (passes : ι → (Σ o, R o) → Bool) (c : Config O R S α ι) : Prop :=
  ∀ i j, hasPassed passes c i = true → hasPassed passes c j = true → i = j

theorem hasPassed_perform_self : hasPassed passes (c.perform exec i o next) i = true ↔
    passes i ⟨o, (exec o c.state).2⟩ = true ∨ hasPassed passes c i = true := by
  simp [hasPassed, perform]

theorem hasPassed_perform_ne (h : j ≠ i) :
    hasPassed passes (c.perform exec i o next) j = hasPassed passes c j := by
  simp [hasPassed, perform, h.symm]

/-- The stages tell who has passed, and still do when the one that had its turn has a new stage. -/
theorem hasPassed_stages {T : Type} {Past : T → Prop} {σ : ι → T} {t : T}
    (h : ∀ j, hasPassed passes c j = true ↔ Past (σ j))
    (hi : Past t ↔ passes i ⟨o, (exec o c.state).2⟩ = true ∨ Past (σ i)) (j : ι) :
    hasPassed passes (c.perform exec i o next) j = true ↔ Past (Function.update σ i t j) := by
  by_cases hj : j = i
  · subst hj
    rw [Function.update_self, hasPassed_perform_self, h j]
    exact hi.symm
  · rw [Function.update_of_ne hj, hasPassed_perform_ne hj]
    exact h j

theorem hasPassed_tick_ne (h : j ≠ i) :
    hasPassed passes (c.tick exec i) j = hasPassed passes c j := by
  unfold tick
  cases c.calls i with
  | ret a => rfl
  | act o next => exact hasPassed_perform_ne h

theorem hasPassed_tick (i : ι) (h : hasPassed passes c j = true) :
    hasPassed passes (c.tick exec i) j = true := by
  unfold tick
  cases c.calls i with
  | ret a => exact h
  | act o next =>
    by_cases hj : j = i
    · subst hj
      exact hasPassed_perform_self.mpr (Or.inr h)
    · rw [hasPassed_perform_ne hj]
      exact h

theorem hasPassed_run (h : hasPassed passes c j = true) :
    hasPassed passes (run (tick exec) c schedule) j = true := by
  induction schedule generalizing c with
  | nil => exact h
  | cons i schedule ih => exact ih (hasPassed_tick i h)

theorem passedOnce_tick (h : PassedOnce passes c) :
    PassedOnce passes (c.tick exec i) ↔ OneAtATime exec passes c i := by
  constructor
  · intro hnext hi j hj
    exact hnext j i (hasPassed_tick i hj) hi
  · intro hone j k hj hk
    by_cases hji : j = i
    · subst hji
      by_cases hkj : k = j
      · exact hkj.symm
      · rw [hasPassed_tick_ne hkj] at hk
        exact (hone hj k hk).symm
    · rw [hasPassed_tick_ne hji] at hj
      by_cases hki : k = i
      · subst hki
        exact hone hk j hj
      · rw [hasPassed_tick_ne hki] at hk
        exact h j k hj hk

theorem passedOnce_of_log_nil (h : c.log = []) : PassedOnce passes c := by
  intro i j hi
  rw [hasPassed, h] at hi
  cases hi

theorem always_passedOnce_iff (h : c.log = []) :
    Always (tick exec) (PassedOnce passes) c schedule ↔
      AllSteps (tick exec) (OneAtATime exec passes) c schedule :=
  always_iff_allSteps (I := fun _ => True) (fun _ _ _ _ => trivial)
    (fun _ _ _ _ h => passedOnce_tick h) trivial (passedOnce_of_log_nil h)
    (allSteps_of_forall (C := fun _ _ => True) (fun _ _ => trivial))

/-- Who has passed stays so: if no two have in the end, no two had before. -/
theorem allSteps_of_passedOnce (h : c.log = [])
    (hlast : PassedOnce passes (run (tick exec) c schedule)) :
    AllSteps (tick exec) (OneAtATime exec passes) c schedule := by
  refine (always_passedOnce_iff h).mp ?_
  rintro pre ⟨rest, rfl⟩ i j hi hj
  have hi' : hasPassed passes (run (tick exec) (run (tick exec) c pre) rest) i = true :=
    hasPassed_run hi
  have hj' : hasPassed passes (run (tick exec) (run (tick exec) c pre) rest) j = true :=
    hasPassed_run hj
  rw [← run_append] at hi' hj'
  exact hlast i j hi' hj'

end Passing

end Config
end Base
