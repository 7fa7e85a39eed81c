import SwiftChat.Chat.ChatRun

/-! Which pairs of users share the id of a private chat. -/
namespace SwiftChat.Chat
open Base
variable {a b c d : Bytes} {s : ChatState}

/-- What joins the two user ids. -/
def underscore : UInt8 := 95

/-- The two user ids of a private chat in byte order. -/
def ordered (userId1 userId2 : Bytes) : Bytes × Bytes :=
  if userId2 < userId1 then (userId2, userId1) else (userId1, userId2)

/-- The same two users, in either order. -/
def SamePair (a b c d : Bytes) : Prop := (a = c ∧ b = d) ∨ (a = d ∧ b = c)

/-- Joined, the two pairs are one text: the second pair is cut from it at a later separator than
the first. -/
def Recut (a b c d : Bytes) : Prop :=
  ∃ m, (ordered c d).1 = (ordered a b).1 ++ underscore :: m ∧
    (ordered a b).2 = m ++ underscore :: (ordered c d).2

/-- The id the registry answers with. -/
def pairId (s : ChatState) (userId1 userId2 : Bytes) : Bytes :=
  (getOrCreatePrivateConversation s.metas userId1 userId2).2

/-- What private ids are for: both sides get the same one, two pairs never share one, and none of
them names a group. -/
structure PairsApart (s : ChatState) (a b c d : Bytes) : Prop where
  symm : pairId s a b = pairId s b a
  apart : pairId s a b = pairId s c d → SamePair a b c d
  group : ∀ g, (GroupStore.getGroup s.groups g).isSome → pairId s a b ≠ g

theorem privateId_eq_ordered (a b : Bytes) :
    privateId a b = str "p_" ++ ((ordered a b).1 ++ underscore :: (ordered a b).2) := by
  unfold privateId ordered
  have hsep : str "_" = [underscore] := by decide
  split <;> simp [hsep]

theorem ordered_eq_iff : ordered a b = ordered c d ↔ SamePair a b c d := by
  have hself : ∀ x y : Bytes, ordered x y = (x, y) ∨ ordered x y = (y, x) := by
    intro x y
    unfold ordered
    split
    · exact Or.inr rfl
    · exact Or.inl rfl
  have hcomm : ∀ x y : Bytes, ordered x y = ordered y x := by
    intro x y
    unfold ordered
    rcases lt_trichotomy x y with h | h | h
    · rw [if_neg (not_lt_of_gt h), if_pos h]
    · rw [h]
    · rw [if_pos h, if_neg (not_lt_of_gt h)]
  constructor
  · intro h
    unfold SamePair
    rcases hself a b with hab | hab
    · rcases hself c d with hcd | hcd
      · rw [hab, hcd] at h
        exact Or.inl (Prod.mk.inj h)
      · rw [hab, hcd] at h
        exact Or.inr (Prod.mk.inj h)
    · rcases hself c d with hcd | hcd
      · rw [hab, hcd] at h
        exact Or.inr (Prod.mk.inj h).symm
      · rw [hab, hcd] at h
        exact Or.inl (Prod.mk.inj h).symm
  · rintro (⟨rfl, rfl⟩ | ⟨rfl, rfl⟩)
    · rfl
    · exact hcomm a b

/-- Two pairs have one id when they are the same or one text cut in two ways. -/
theorem privateId_eq_iff :
    privateId a b = privateId c d ↔ SamePair a b c d ∨ Recut a b c d ∨ Recut c d a b := by
  rw [privateId_eq_ordered, privateId_eq_ordered, List.append_right_inj, append_sep_eq_iff,
    ← ordered_eq_iff, Prod.ext_iff]
  rfl

/-- Two cuts of one text are two pairs: a pair determines its first field. -/
theorem Recut.not_samePair (h : Recut a b c d) : ¬ SamePair a b c d := by
  obtain ⟨m, hfirst, _⟩ := h
  intro hsame
  rw [ordered_eq_iff.mpr hsame] at hfirst
  have hlen := congrArg List.length hfirst
  simp only [List.length_append, List.length_cons] at hlen
  omega

theorem SamePair.swap (h : SamePair a b c d) : SamePair c d a b := by
  rcases h with ⟨rfl, rfl⟩ | ⟨rfl, rfl⟩
  · exact Or.inl ⟨rfl, rfl⟩
  · exact Or.inr ⟨rfl, rfl⟩

/-- Ids of one length, such as those of registered users, are never cut in two ways. -/
theorem not_recut_of_length (hac : a.length = c.length) (had : a.length = d.length)
    (hab : a.length = b.length) : ¬ Recut a b c d := by
  rintro ⟨m, hfirst, _⟩
  have hlen := congrArg List.length hfirst
  have hleft : ((ordered a b).1).length = a.length := by
    unfold ordered
    split
    · exact hab.symm
    · rfl
  have hright : ((ordered c d).1).length = a.length := by
    unfold ordered
    split
    · exact had.symm
    · exact hac.symm
  simp only [List.length_append, List.length_cons] at hlen
  omega

theorem pairId_eq (ha : a ≠ []) (hb : b ≠ []) : pairId s a b = privateId a b :=
  registry_id hb ha s.metas

/-- In every state of the chat service, private ids do what they are for exactly when the two pairs
are not two cuts of one text. -/
theorem pairs_apart_iff (ops : List ChatOp) (a b c d : Bytes) (ha : a ≠ []) (hb : b ≠ [])
    (hc : c ≠ []) (hd : d ≠ []) :
    PairsApart (chatAfter ops) a b c d ↔ ¬ Recut a b c d ∧ ¬ Recut c d a b := by
  constructor
  · intro h
    have hsame : privateId a b = privateId c d → SamePair a b c d := by
      intro he
      apply h.apart
      rw [pairId_eq ha hb, pairId_eq hc hd, he]
    constructor
    · intro hcut
      exact hcut.not_samePair (hsame (privateId_eq_iff.mpr (Or.inr (Or.inl hcut))))
    · intro hcut
      exact hcut.not_samePair (hsame (privateId_eq_iff.mpr (Or.inr (Or.inr hcut)))).swap
  · rintro ⟨hcut, hcut'⟩
    refine ⟨?_, ?_, ?_⟩
    · rw [pairId_eq ha hb, pairId_eq hb ha, privateId_comm]
    · intro he
      rw [pairId_eq ha hb, pairId_eq hc hd] at he
      rcases privateId_eq_iff.mp he with h | h | h
      · exact h
      · exact absurd h hcut
      · exact absurd h hcut'
    · intro g hg he
      obtain ⟨data, hdata⟩ := Option.isSome_iff_exists.mp hg
      have hok : ChatOk (fun _ => True) (chatAfter ops) := by
        apply chatAfter_ok
        intro op _
        cases op <;> trivial
      rw [pairId_eq ha hb] at he
      have hgroup := (hok.groups.of_getGroup hdata).1
      rw [← he] at hgroup
      exact not_group_privateId a b hgroup

theorem pairs_apart_registered :
    PairsApart (chatAfter []) (str "u_aaaaaaaaaaaa") (str "u_bbbbbbbbbbbb") (str "u_aaaaaaaaaaaa")
      (str "u_cccccccccccc") := by
  refine (pairs_apart_iff [] _ _ _ _ (by decide) (by decide) (by decide) (by decide)).mpr ⟨?_, ?_⟩
  · exact not_recut_of_length rfl rfl rfl
  · exact not_recut_of_length rfl rfl rfl

/-- Two registered users who write to targets nobody checks get one timeline. -/
theorem pairs_share_timeline :
    pairId (chatAfter []) (str "u_aaaaaaaaaaaa") (str "z_u_bbbbbbbbbbbb") =
        pairId (chatAfter []) (str "u_bbbbbbbbbbbb") (str "u_aaaaaaaaaaaa_z") ∧
      ¬ PairsApart (chatAfter []) (str "u_aaaaaaaaaaaa") (str "z_u_bbbbbbbbbbbb")
        (str "u_bbbbbbbbbbbb") (str "u_aaaaaaaaaaaa_z") := by
  have hone : pairId (chatAfter []) (str "u_aaaaaaaaaaaa") (str "z_u_bbbbbbbbbbbb") =
      pairId (chatAfter []) (str "u_bbbbbbbbbbbb") (str "u_aaaaaaaaaaaa_z") := by decide
  refine ⟨hone, ?_⟩
  intro h
  rcases h.apart hone with ⟨he, _⟩ | ⟨he, _⟩
  · exact absurd he (by decide)
  · exact absurd he (by decide)

end SwiftChat.Chat
