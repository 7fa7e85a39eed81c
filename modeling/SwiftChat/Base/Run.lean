import Mathlib.Data.List.Infix

/-! Finite runs of a deterministic transition function, and the rules that carry a property
from one step to every state of a run. -/
namespace Base
variable {S A : Type*} {step : S → A → S} {s : S} {a : A} {xs : List A}
  {I P : S → Prop} {Ok C : S → A → Prop}

/-- The state after a list of actions. -/
def run (step : S → A → S) (s : S) (xs : List A) : S := xs.foldl step s

theorem run_append {ys : List A} : run step s (xs ++ ys) = run step (run step s xs) ys :=
  List.foldl_append

/-- Each action of the run meets the condition in the state it is taken from. -/
def AllSteps (step : S → A → S) (C : S → A → Prop) : S → List A → Prop
  | _, [] => True
  | s, a :: xs => C s a ∧ AllSteps step C (step s a) xs

/-- The property holds in every state the run passes through. -/
def Always (step : S → A → S) (P : S → Prop) (s : S) (xs : List A) : Prop :=
  ∀ pre, pre <+: xs → P (run step s pre)

@[simp] theorem allSteps_nil : AllSteps step C s [] := trivial

@[simp] theorem allSteps_cons :
    AllSteps step C s (a :: xs) ↔ C s a ∧ AllSteps step C (step s a) xs := Iff.rfl

instance decidableAllSteps [∀ s a, Decidable (C s a)] :
    ∀ s xs, Decidable (AllSteps step C s xs)
  | _, [] => .isTrue trivial
  | s, a :: xs =>
    have := decidableAllSteps (step s a) xs
    inferInstanceAs (Decidable (C s a ∧ AllSteps step C (step s a) xs))

/-- A condition on the actions alone. -/
theorem allSteps_of_mem {Q : A → Prop} (h : ∀ a ∈ xs, Q a) : AllSteps step (fun _ => Q) s xs := by
  induction xs generalizing s with
  | nil => exact trivial
  | cons a xs ih =>
    exact ⟨h a List.mem_cons_self, ih (fun b hb => h b (List.mem_cons_of_mem _ hb))⟩

theorem allSteps_of_forall (h : ∀ s a, C s a) : AllSteps step C s xs := by
  induction xs generalizing s with
  | nil => exact trivial
  | cons a xs ih => exact ⟨h s a, ih⟩

/-- Two conditions that agree on every step agree along every run. -/
theorem allSteps_congr {D : S → A → Prop} (h : ∀ s a, C s a ↔ D s a) :
    AllSteps step C s xs ↔ AllSteps step D s xs := by
  induction xs generalizing s with
  | nil => exact Iff.rfl
  | cons a xs ih => exact and_congr (h s a) ih

/-- Under an invariant of the run, one condition on its steps gives another. -/
theorem AllSteps.imp {D : S → A → Prop} (hI : ∀ s a, I s → C s a → I (step s a))
    (hD : ∀ s a, I s → C s a → D s a) (hs : I s) (h : AllSteps step C s xs) :
    AllSteps step D s xs := by
  induction xs generalizing s with
  | nil => exact trivial
  | cons a xs ih => exact ⟨hD s a hs h.1, ih (hI s a hs h.1) h.2⟩

theorem AllSteps.and {D : S → A → Prop} (h : AllSteps step C s xs) (hD : AllSteps step D s xs) :
    AllSteps step (fun s a => C s a ∧ D s a) s xs := by
  induction xs generalizing s with
  | nil => exact trivial
  | cons a xs ih => exact ⟨⟨h.1, hD.1⟩, ih h.2 hD.2⟩

theorem always_nil : Always step P s [] ↔ P s := by
  constructor
  · intro h
    exact h [] List.nil_prefix
  · intro h pre hpre
    rw [List.prefix_nil.mp hpre]
    exact h

theorem always_cons : Always step P s (a :: xs) ↔ P s ∧ Always step P (step s a) xs := by
  constructor
  · intro h
    refine ⟨h [] List.nil_prefix, ?_⟩
    intro pre hpre
    exact h (a :: pre) (List.cons_prefix_cons.mpr ⟨rfl, hpre⟩)
  · rintro ⟨hs, ht⟩ pre hpre
    cases pre with
    | nil => exact hs
    | cons b pre =>
      obtain ⟨rfl, htail⟩ := List.cons_prefix_cons.mp hpre
      exact ht pre htail

/-- A property of the run holds after each of its steps. -/
theorem Always.allSteps (h : Always step P s xs) : AllSteps step (fun s a => P (step s a)) s xs := by
  induction xs generalizing s with
  | nil => exact trivial
  | cons a xs ih =>
    have ht := (always_cons.mp h).2
    exact ⟨ht [] List.nil_prefix, ih ht⟩

theorem Always.first (h : Always step P s xs) : P s := h [] List.nil_prefix

theorem always_append {ys : List A} :
    Always step P s (xs ++ ys) ↔ Always step P s xs ∧ Always step P (run step s xs) ys := by
  induction xs generalizing s with
  | nil =>
    simp only [List.nil_append, always_nil, run, List.foldl_nil]
    exact ⟨fun h => ⟨h.first, h⟩, fun h => h.2⟩
  | cons a xs ih =>
    rw [List.cons_append, always_cons, always_cons, ih, and_assoc]
    rfl

theorem Always.last (h : Always step P s xs) : P (run step s xs) := h xs (List.prefix_refl xs)

/-- An invariant that every action of a list keeps holds after the list. -/
theorem run_invariant {Q : A → Prop} (hstep : ∀ s a, I s → Q a → I (step s a)) (hs : I s)
    (hxs : ∀ a ∈ xs, Q a) : I (run step s xs) := by
  induction xs generalizing s with
  | nil => exact hs
  | cons a xs ih =>
    have ha := hstep s a hs (hxs a List.mem_cons_self)
    exact ih ha (fun b hb => hxs b (List.mem_cons_of_mem _ hb))

/-- An invariant kept by every admissible step holds along every admissible run. -/
theorem always_of_allSteps (hstep : ∀ s a, I s → Ok s a → I (step s a)) (hs : I s)
    (hok : AllSteps step Ok s xs) : Always step I s xs := by
  induction xs generalizing s with
  | nil => exact always_nil.mpr hs
  | cons a xs ih =>
    obtain ⟨ha, hxs⟩ := hok
    exact always_cons.mpr ⟨hs, ih (hstep s a hs ha) hxs⟩

/-- When a step keeps the property exactly under a condition, the property holds along a run
exactly when every step meets the condition. The invariant need only outlive the steps that
meet it. -/
theorem always_iff_allSteps_of_kept (hI : ∀ s a, I s → Ok s a → C s a → I (step s a))
    (hP : ∀ s a, I s → Ok s a → P s → (P (step s a) ↔ C s a))
    (hi : I s) (hp : P s) (hok : AllSteps step Ok s xs) :
    Always step P s xs ↔ AllSteps step C s xs := by
  induction xs generalizing s with
  | nil => simp [always_nil, hp]
  | cons a xs ih =>
    obtain ⟨ha, hxs⟩ := hok
    rw [always_cons, allSteps_cons]
    constructor
    · rintro ⟨_, ht⟩
      have hp' : P (step s a) := ht [] List.nil_prefix
      have hc : C s a := (hP s a hi ha hp).mp hp'
      exact ⟨hc, (ih (hI s a hi ha hc) hp' hxs).mp ht⟩
    · rintro ⟨hc, ht⟩
      have hp' := (hP s a hi ha hp).mpr hc
      exact ⟨hp, (ih (hI s a hi ha hc) hp' hxs).mpr ht⟩

/-- The same rule for an invariant of all steps. -/
theorem always_iff_allSteps (hI : ∀ s a, I s → Ok s a → I (step s a))
    (hP : ∀ s a, I s → Ok s a → P s → (P (step s a) ↔ C s a))
    (hi : I s) (hp : P s) (hok : AllSteps step Ok s xs) :
    Always step P s xs ↔ AllSteps step C s xs :=
  always_iff_allSteps_of_kept (fun s a hs ha _ => hI s a hs ha) hP hi hp hok

/-- The same rule for a property of the states together with one of the steps. -/
theorem always_and_allSteps_iff {Q : S → A → Prop} (hI : ∀ s a, I s → I (step s a))
    (hPQ : ∀ s a, I s → P s → (P (step s a) ∧ Q s a ↔ C s a)) (hi : I s) (hp : P s) :
    Always step P s xs ∧ AllSteps step Q s xs ↔ AllSteps step C s xs := by
  induction xs generalizing s with
  | nil => simp [always_nil, hp]
  | cons a xs ih =>
    rw [always_cons, allSteps_cons, allSteps_cons]
    constructor
    · rintro ⟨⟨_, ht⟩, hq, hqs⟩
      exact ⟨(hPQ s a hi hp).mp ⟨ht.first, hq⟩, (ih (hI s a hi) ht.first).mp ⟨ht, hqs⟩⟩
    · rintro ⟨hc, hcs⟩
      obtain ⟨hp', hq⟩ := (hPQ s a hi hp).mpr hc
      obtain ⟨ht, hqs⟩ := (ih (hI s a hi) hp').mpr hcs
      exact ⟨⟨hp, ht⟩, hq, hqs⟩

/-- A property that no step brings back holds at the end of a run exactly when every step keeps it. -/
theorem run_iff_allSteps (hI : ∀ s a, I s → Ok s a → I (step s a))
    (hP : ∀ s a, I s → Ok s a → P s → (P (step s a) ↔ C s a))
    (hlost : ∀ s a, I s → Ok s a → P (step s a) → P s)
    (hi : I s) (hp : P s) (hok : AllSteps step Ok s xs) :
    P (run step s xs) ↔ AllSteps step C s xs := by
  rw [← always_iff_allSteps hI hP hi hp hok]
  constructor
  · intro hlast
    have hfirst : ∀ {s}, I s → AllSteps step Ok s xs → P (run step s xs) → Always step P s xs := by
      clear hlast hok hp hi
      induction xs with
      | nil => exact fun _ _ h => always_nil.mpr h
      | cons a xs ih =>
        intro s hi hok hlast
        have ht := ih (hI s a hi hok.1) hok.2 hlast
        exact always_cons.mpr ⟨hlost s a hi hok.1 ht.first, ht⟩
    exact hfirst hi hok hlast
  · exact Always.last

/-- The same rule for an account of the run that its steps do not see: the invariant relates the
account to the state, and the account says which actions are admissible. -/
theorem always_iff_allSteps_account {G : Type*} {next : G → A → G} {J : G → S → Prop}
    {Fit : G → A → Prop} {g : G}
    (hJ : ∀ g s a, J g s → Fit g a → C s a → J (next g a) (step s a))
    (hP : ∀ g s a, J g s → Fit g a → P s → (P (step s a) ↔ C s a))
    (hg : J g s) (hp : P s) (hfit : AllSteps next Fit g xs) :
    Always step P s xs ↔ AllSteps step C s xs := by
  induction xs generalizing g s with
  | nil => simp [always_nil, hp]
  | cons a xs ih =>
    obtain ⟨ha, hxs⟩ := hfit
    rw [always_cons, allSteps_cons]
    constructor
    · rintro ⟨_, ht⟩
      have hc : C s a := (hP g s a hg ha hp).mp ht.first
      exact ⟨hc, (ih (hJ g s a hg ha hc) ht.first hxs).mp ht⟩
    · rintro ⟨hc, ht⟩
      have hp' := (hP g s a hg ha hp).mpr hc
      exact ⟨hp, (ih (hJ g s a hg ha hc) hp' hxs).mpr ht⟩

/-- Two conditions that agree on the steps under such an invariant agree along the run, when a step
that meets them keeps the invariant. -/
theorem allSteps_iff_account {G : Type*} {next : G → A → G} {J : G → S → Prop}
    {Fit : G → A → Prop} {D : S → A → Prop} {g : G}
    (hJ : ∀ g s a, J g s → Fit g a → C s a → J (next g a) (step s a))
    (hD : ∀ g s a, J g s → Fit g a → (D s a ↔ C s a))
    (hg : J g s) (hfit : AllSteps next Fit g xs) : AllSteps step D s xs ↔ AllSteps step C s xs := by
  induction xs generalizing g s with
  | nil => exact Iff.rfl
  | cons a xs ih =>
    obtain ⟨ha, hxs⟩ := hfit
    rw [allSteps_cons, allSteps_cons, hD g s a hg ha]
    apply and_congr_right
    intro hc
    exact ih (hJ g s a hg ha hc) hxs

/-- Names drawn without repetition are new at each step. -/
theorem allSteps_new {B : Type*} {draws : A → List B} {names : List B}
    (h : (names ++ xs.flatMap draws).Nodup) :
    AllSteps (fun names a => names ++ draws a) (fun names a => ∀ i ∈ draws a, i ∉ names)
      names xs := by
  induction xs generalizing names with
  | nil => exact trivial
  | cons a xs ih =>
    rw [List.flatMap_cons, ← List.append_assoc] at h
    refine ⟨?_, ih h⟩
    intro i hi hmem
    obtain ⟨_, _, hne⟩ := List.nodup_append.mp (List.nodup_append.mp h).1
    exact hne i hmem i hi rfl

/-- What a run leaves of a part of the state that each action overwrites or keeps. -/
theorem run_overwrite {V : Type*} {look : S → Option V} {val : A → Option V}
    (h : ∀ s a, look (step s a) = (val a).or (look s)) :
    look (run step s xs) = (xs.filterMap val).getLast?.or (look s) := by
  induction xs generalizing s with
  | nil => rfl
  | cons a xs ih =>
    have hrun : look (run step s (a :: xs)) = (xs.filterMap val).getLast?.or (look (step s a)) := ih
    rw [hrun, h]
    cases hv : val a with
    | none => simp [hv]
    | some v => cases hl : (xs.filterMap val).getLast? <;> simp [hv, hl, List.getLast?_cons]

end Base
