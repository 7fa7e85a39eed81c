import SwiftChat.Base.Run

/-! Parts of a state, calls on them, and what a run of the whole does to each part. -/
namespace Base
variable {S P A O α : Type}

/-- A part of a state that can be read and replaced on its own. -/
structure Part (S P : Type) where
  get : S → P
  set : S → P → S
  get_set : ∀ s p, get (set s p) = p
  set_get : ∀ s, set s (get s) = s

namespace Part
variable {p : Part S P}

/-- A call on the part is one on the whole. -/
def lift (p : Part S P) (call : P → P × α) (s : S) : S × α :=
  (p.set s (call (p.get s)).1, (call (p.get s)).2)

@[simp] theorem lift_fst (call : P → P × α) (s : S) :
    (p.lift call s).1 = p.set s (call (p.get s)).1 := rfl

@[simp] theorem lift_snd (call : P → P × α) (s : S) :
    (p.lift call s).2 = (call (p.get s)).2 := rfl

/-- A call that leaves the part alone leaves the whole alone. -/
theorem lift_fixed {call : P → P × α} {s : S} {b : α} (h : call (p.get s) = (p.get s, b)) :
    p.lift call s = (s, b) := by
  rw [lift, h, p.set_get]

end Part

/-- What a history of actions amounts to for one part: each action stands for some operations. -/
def History (opStep : P → O → P) (ops : A → List O) (start : P) (history : List A) : P :=
  run opStep start (history.flatMap ops)

theorem history_concat {opStep : P → O → P} {ops : A → List O} {start : P} {history : List A}
    {a : A} :
    History opStep ops start (history ++ [a]) =
      run opStep (History opStep ops start history) (ops a) := by
  rw [History, List.flatMap_append, List.flatMap_singleton, run_append]
  rfl

/-- Of two operations, the one before the other, each is what an entry stands for. -/
theorem exists_entries {ops : A → List O} {history : List A} {x y : O}
    (hone : ∀ a ∈ history, (ops a).length ≤ 1) (h : [x, y].Sublist (history.flatMap ops)) :
    ∃ past a mid b later, history = past ++ a :: (mid ++ b :: later) ∧ ops a = [x] ∧ ops b = [y] := by
  induction history with
  | nil => cases h
  | cons a history ih =>
    have hrest : ∀ b ∈ history, (ops b).length ≤ 1 := fun b hb => hone b (List.mem_cons_of_mem _ hb)
    rw [List.flatMap_cons] at h
    by_cases ha : ops a = []
    · rw [ha] at h
      obtain ⟨past, b, mid, c, later, rfl, hb, hc⟩ := ih hrest h
      exact ⟨a :: past, b, mid, c, later, rfl, hb, hc⟩
    · obtain ⟨z, hz⟩ := List.length_eq_one_iff.mp
        (Nat.le_antisymm (hone a List.mem_cons_self) (List.length_pos_iff.mpr ha))
      rw [hz] at h
      cases h with
      | cons _ h =>
        obtain ⟨past, b, mid, c, later, rfl, hb, hc⟩ := ih hrest h
        exact ⟨a :: past, b, mid, c, later, rfl, hb, hc⟩
      | cons_cons _ h =>
        obtain ⟨b, hb, hy⟩ := List.mem_flatMap.mp (List.singleton_sublist.mp h)
        obtain ⟨mid, later, rfl⟩ := List.append_of_mem hb
        refine ⟨[], a, mid, b, later, rfl, hz, ?_⟩
        obtain ⟨w, hw⟩ := List.length_eq_one_iff.mp
          (Nat.le_antisymm (hrest b hb) (List.length_pos_of_mem hy))
        rw [hw] at hy
        rw [hw, List.mem_singleton.mp hy]

/-- Every entry of a history meets a condition on the entries before it. -/
def EachAfter (C : List A → A → Prop) (history : List A) : Prop :=
  ∀ past a, past ++ [a] <+: history → C past a

section
variable {C : List A → A → Prop} {history : List A} {a : A}

theorem eachAfter_nil : EachAfter C [] := by
  intro past a h
  simp at h

theorem eachAfter_concat : EachAfter C (history ++ [a]) ↔ EachAfter C history ∧ C history a := by
  constructor
  · intro h
    refine ⟨fun past b hb => h past b (hb.trans (List.prefix_append _ _)), ?_⟩
    exact h history a (List.prefix_refl _)
  · rintro ⟨h, ha⟩ past b hb
    rcases List.prefix_concat_iff.mp hb with he | hb
    · obtain ⟨rfl, rfl⟩ := List.append_inj' he rfl |>.imp id List.singleton_inj.mp
      exact ha
    · exact h past b hb

/-- An entry stands after some entries that it meets the condition on. -/
theorem EachAfter.of_mem (h : EachAfter C history) (ha : a ∈ history) :
    ∃ past, past ++ [a] <+: history ∧ C past a := by
  obtain ⟨past, later, rfl⟩ := List.append_of_mem ha
  have hpre : past ++ [a] <+: past ++ a :: later := ⟨later, by simp⟩
  exact ⟨past, hpre, h past a hpre⟩

/-- What is kept once it holds is kept by later entries. -/
theorem holds_of_prefix {P : List A → Prop} {past : List A}
    (hkeep : ∀ past a, P past → P (past ++ [a])) (h : P past) (hpre : past <+: history) :
    P history := by
  obtain ⟨later, rfl⟩ := hpre
  induction later generalizing past with
  | nil => rwa [List.append_nil]
  | cons a later ih =>
    rw [List.append_cons]
    exact ih (hkeep past a h)

/-- So it comes true at one entry alone. -/
theorem entry_unique {P : List A → Prop} {past past' later later' : List A} {b : A}
    (hkeep : ∀ past a, P past → P (past ++ [a]))
    (hsplit : past ++ a :: later = past' ++ b :: later') (hnot : ¬ P past) (h : P (past ++ [a]))
    (hnot' : ¬ P past') (h' : P (past' ++ [b])) : past = past' ∧ a = b ∧ later = later' := by
  have hbefore : ∀ {past : List A} {a : A} {mid : List A}, P (past ++ [a]) →
      P (past ++ a :: mid) :=
    fun h => holds_of_prefix hkeep h ⟨_, (List.append_cons _ _ _).symm⟩
  rcases List.append_eq_append_iff.mp hsplit with ⟨mid, rfl, hrest⟩ | ⟨mid, rfl, hrest⟩
  · cases mid with
    | nil =>
      obtain ⟨rfl, rfl⟩ := List.cons.inj hrest
      exact ⟨(List.append_nil _).symm, rfl, rfl⟩
    | cons c mid =>
      obtain ⟨rfl, _⟩ := List.cons.inj hrest
      exact absurd (hbefore h) hnot'
  · cases mid with
    | nil =>
      obtain ⟨rfl, rfl⟩ := List.cons.inj hrest
      exact ⟨List.append_nil _, rfl, rfl⟩
    | cons c mid =>
      obtain ⟨rfl, _⟩ := List.cons.inj hrest
      exact absurd (hbefore h') hnot

end
end Base
