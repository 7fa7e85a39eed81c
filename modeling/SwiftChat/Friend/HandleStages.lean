import SwiftChat.Friend.HandleActions

/-! How far each call on a request has come, and what its turn does to the status of the request and
to the friendship, whatever the other calls do in between. -/
namespace SwiftChat.Friend
open Base
variable {ι : Type} {calls : ι → HandleCall} {q : FriendRequestData} {σ : ι → Stage} {s s' : Int}
  {fr fr' : Bool} {i j : ι} {st st' : Stage} {call : HandleCall}

/-- A call that accepts waits until it has looked for the friendship; a call past its last check
writes, whatever it may read. -/
inductive Stage where
  | fresh
  | waiting
  | passed
  | deciding
  | done
  | refused
deriving DecidableEq

namespace Stage

/-- The call has passed its last check. -/
def Past : Stage → Prop
  | .passed | .deciding | .done => True
  | _ => False

/-- An accepting call has written the friendship. -/
def Wrote : Stage → Prop
  | .deciding | .done => True
  | _ => False

theorem Wrote.past {st : Stage} (h : st.Wrote) : st.Past := by
  cases st with
  | deciding => trivial
  | done => trivial
  | _ => cases h

end Stage

/-- The status the call gives the request. -/
def HandleCall.outcome (call : HandleCall) : Int := if call.accept then 1 else 2

/-- A turn of a call, with the status of the request and whether the two are friends before and after
it. -/
inductive Turn (call : HandleCall) (q : FriendRequestData) :
    Stage → Int → Bool → Stage → Int → Bool → Prop where
  | refuse {s : Int} {fr : Bool} (h : call.userId = q.toUserId → s ≠ 0) :
    Turn call q .fresh s fr .refused s fr
  | enter {fr : Bool} (haccept : call.accept = true) : Turn call q .fresh 0 fr .waiting 0 fr
  | reject {fr : Bool} (hreject : call.accept = false) : Turn call q .fresh 0 fr .deciding 0 fr
  | wait {s : Int} {fr : Bool} : Turn call q .waiting s fr .waiting s fr
  | known {s : Int} : Turn call q .waiting s true .refused s true
  | test {s : Int} : Turn call q .waiting s false .passed s false
  | befriend {s : Int} {fr : Bool} (haccept : call.accept = true) :
    Turn call q .passed s fr .deciding s true
  | reread {s : Int} {fr : Bool} : Turn call q .deciding s fr .deciding s fr
  | decide {s : Int} {fr : Bool} : Turn call q .deciding s fr .done call.outcome fr

theorem Turn.past (h : Turn call q st s fr st' s' fr') (hp : st.Past) : st'.Past := by
  cases h with
  | refuse => cases hp
  | enter => cases hp
  | wait => cases hp
  | known => cases hp
  | _ => trivial

/-- What the status and the friendship tell about the calls. -/
structure RaceOk (calls : ι → HandleCall) (q : FriendRequestData) (σ : ι → Stage) (s : Int)
    (fr : Bool) : Prop where
  status : s = 0 ∧ (∀ i, σ i ≠ .done) ∨ ∃ i, σ i = .done ∧ s = (calls i).outcome
  friends : fr = true ↔ ∃ i, (calls i).accept = true ∧ (σ i).Wrote
  refused : ∀ i, σ i = .refused → (calls i).userId = q.toUserId → ∃ j, (σ j).Past

section
variable [DecidableEq ι]

theorem update_past (ht : Turn (calls i) q (σ i) s fr st' s' fr') (hj : (σ j).Past) :
    (Function.update σ i st' j).Past := by
  by_cases hji : j = i
  · subst hji
    rw [Function.update_self]
    exact ht.past hj
  · rwa [Function.update_of_ne hji]

/-- A stage that the turn neither leaves nor enters is the stage of the same calls. -/
theorem update_iff {Q : ι → Stage → Prop} (h : Q i (σ i) ↔ Q i st') (j : ι) :
    Q j (Function.update σ i st' j) ↔ Q j (σ j) := by
  by_cases hji : j = i
  · subst hji
    rw [Function.update_self]
    exact h.symm
  · rw [Function.update_of_ne hji]

theorem RaceOk.status_turn (h : RaceOk calls q σ s fr)
    (ht : Turn (calls i) q (σ i) s fr st' s' fr') :
    s' = 0 ∧ (∀ j, Function.update σ i st' j ≠ .done) ∨
      ∃ j, Function.update σ i st' j = .done ∧ s' = (calls j).outcome := by
  have hsame : s' = s → (σ i = .done ↔ st' = .done) → s' = 0 ∧
      (∀ j, Function.update σ i st' j ≠ .done) ∨
        ∃ j, Function.update σ i st' j = .done ∧ s' = (calls j).outcome := by
    rintro rfl hdone
    have hall := update_iff (Q := fun _ x => x = .done) hdone
    simp only [ne_eq, hall]
    exact h.status
  generalize hst : σ i = st at ht
  cases ht with
  | decide => exact Or.inr ⟨i, Function.update_self .., rfl⟩
  | _ => exact hsame rfl (by simp [hst])

theorem RaceOk.friends_turn (h : RaceOk calls q σ s fr)
    (ht : Turn (calls i) q (σ i) s fr st' s' fr') :
    fr' = true ↔ ∃ j, (calls j).accept = true ∧ (Function.update σ i st' j).Wrote := by
  have hsame : fr' = fr → ((calls i).accept = true ∧ (σ i).Wrote ↔
      (calls i).accept = true ∧ st'.Wrote) →
      (fr' = true ↔ ∃ j, (calls j).accept = true ∧ (Function.update σ i st' j).Wrote) := by
    rintro rfl hwrote
    have hall := update_iff (Q := fun j x => (calls j).accept = true ∧ x.Wrote) hwrote
    simp only [hall]
    exact h.friends
  generalize hst : σ i = st at ht
  cases ht with
  | befriend haccept =>
    refine iff_of_true rfl ⟨i, haccept, ?_⟩
    rw [Function.update_self]
    trivial
  | reject hreject => exact hsame rfl (by simp [hreject])
  | _ => exact hsame rfl (by simp [hst, Stage.Wrote])

theorem RaceOk.refused_turn (h : RaceOk calls q σ s fr)
    (ht : Turn (calls i) q (σ i) s fr st' s' fr') (hj : Function.update σ i st' j = .refused)
    (hto : (calls j).userId = q.toUserId) : ∃ k, (Function.update σ i st' k).Past := by
  suffices hpast : ∃ k, (σ k).Past by
    obtain ⟨k, hk⟩ := hpast
    exact ⟨k, update_past ht hk⟩
  by_cases hji : j = i
  · subst hji
    rw [Function.update_self] at hj
    subst hj
    generalize hst : σ j = st at ht
    cases ht with
    | refuse hclosed =>
      rcases h.status with ⟨hopen, _⟩ | ⟨k, hk, _⟩
      · exact absurd hopen (hclosed hto)
      · exact ⟨k, by rw [hk]; trivial⟩
    | known =>
      obtain ⟨k, _, hk⟩ := h.friends.mp rfl
      exact ⟨k, hk.past⟩
  · rw [Function.update_of_ne hji] at hj
    exact h.refused j hj hto

theorem RaceOk.turn (h : RaceOk calls q σ s fr) (ht : Turn (calls i) q (σ i) s fr st' s' fr') :
    RaceOk calls q (Function.update σ i st') s' fr' where
  status := h.status_turn ht
  friends := h.friends_turn ht
  refused _ := h.refused_turn ht

end

/-- When every call has its answer and one of them passed its last check alone, the status is its
outcome and says whether the two are friends. -/
theorem RaceOk.settled (h : RaceOk calls q σ s fr) (hend : ∀ i, σ i = .done ∨ σ i = .refused)
    (hreceiver : ∃ i, (calls i).userId = q.toUserId)
    (honce : ∀ i j, (σ i).Past → (σ j).Past → i = j) :
    (s = 1 ↔ fr = true) ∧ (s = 2 ↔ ¬ fr = true) := by
  obtain ⟨p, hp⟩ : ∃ p, (σ p).Past := by
    obtain ⟨i, hi⟩ := hreceiver
    rcases hend i with hdone | hrefused
    · exact ⟨i, by rw [hdone]; trivial⟩
    · exact h.refused i hrefused hi
  have hdone : σ p = .done := by
    rcases hend p with hdone | hrefused
    · exact hdone
    · rw [hrefused] at hp
      cases hp
  have hs : s = (calls p).outcome := by
    rcases h.status with ⟨_, hnone⟩ | ⟨i, hi, hs⟩
    · exact absurd hdone (hnone p)
    · rwa [honce p i hp (by rw [hi]; trivial)]
  have hfr : fr = true ↔ (calls p).accept = true := by
    rw [h.friends]
    constructor
    · rintro ⟨i, haccept, hwrote⟩
      rwa [honce p i hp hwrote.past]
    · intro haccept
      exact ⟨p, haccept, by rw [hdone]; trivial⟩
  rw [hs, hfr, HandleCall.outcome]
  cases (calls p).accept with
  | true => decide
  | false => decide

end SwiftChat.Friend
