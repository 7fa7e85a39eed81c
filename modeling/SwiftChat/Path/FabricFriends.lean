import SwiftChat.Path.FabricSound

/-! Friendships across the whole system: what the two who are friends have done. -/
namespace SwiftChat.Path
open Base Gate Zone

/-- The user `x`, who was given the token of its request, asked `y`; in a later request `y`, who was
given that one's token, accepted. -/
def Consenting (cfg : Setup) (history : List Served) (x y : Bytes) : Prop :=
  ∃ past e mid e' later remark r asked g accepted,
    history = past ++ e :: (mid ++ e' :: later) ∧
    Issued cfg past x e.request.token ∧
    cfg.friendOps e.draws e.request = [.addFriend x y remark r asked] ∧
    Issued cfg (past ++ e :: mid) y e'.request.token ∧
    cfg.friendOps e'.draws e'.request =
      [.handleRequest y (generateShortId (str "req_") r) true g accepted]

section
variable {cfg : Setup} {history : List Served} {x y : Bytes}

theorem friendOps_one (cfg : Setup) (draws : Draws) (r : ClientRequest) :
    (cfg.friendOps draws r).length ≤ 1 := by
  have hone : ∀ f : Bytes → Friend.FriendOp,
      (friendOpOf cfg.jwt draws.friend r f).length ≤ 1 := by
    intro f
    unfold friendOpOf
    simp only
    split
    · simp
    · simp
  have hasked : ∀ {α : Type} (parse : Bytes → Option α) (f : α → List Friend.FriendOp),
      (∀ req, (f req).length ≤ 1) → (asked parse r f).length ≤ 1 := by
    intro α parse f hf
    unfold asked
    split
    · simp
    · exact hf _
  have hin : ∀ f : Bytes → Friend.FriendOp,
      (askedInSession r (friendOpOf cfg.jwt draws.friend r f)).length ≤ 1 := by
    intro f
    unfold askedInSession
    split
    · simp
    · exact hone f
  have hite : ∀ {c : Prop} [Decidable c] {xs ys : List Friend.FriendOp}, xs.length ≤ 1 →
      ys.length ≤ 1 → (if c then xs else ys).length ≤ 1 := by
    intro c _ xs ys hx hy
    split
    · exact hx
    · exact hy
  unfold Setup.friendOps Zone.friendOps
  repeat' refine hite ?_ ?_
  any_goals exact Nat.zero_le 1
  all_goals first | exact hasked _ _ fun _ => hone _ | exact hasked _ _ fun _ => hin _

/-- What one user asked and the other accepted was asked and accepted in requests of theirs. -/
theorem consenting_of_accepted (h : EachAfter (Authentic cfg) history)
    (hacc : Friend.Accepted (history.flatMap fun e => cfg.friendOps e.draws e.request) x y) :
    Consenting cfg history x y := by
  obtain ⟨remark, r, asked, g, accepted, hsub⟩ := hacc
  obtain ⟨past, e, mid, e', later, rfl, he, he'⟩ :=
    exists_entries (fun e _ => friendOps_one cfg e.draws e.request) hsub
  refine ⟨past, e, mid, e', later, remark, r, asked, g, accepted, rfl, ?_, he, ?_, he'⟩
  · refine ((h past e ⟨mid ++ e' :: later, by simp⟩).acting x (Or.inr ?_)).2
    rw [he]
    exact List.mem_singleton.mpr rfl
  · refine ((h (past ++ e :: mid) e' ⟨later, by simp⟩).acting y (Or.inr ?_)).2
    rw [he']
    exact List.mem_singleton.mpr rfl

end

/-- Two users are friends only when each has the other, and when one of them asked and the other
accepted, both logged in. -/
theorem fabric_friends (cfg : Setup) (gateIds : Bytes → Bytes) (evs : List FabricEvent)
    (a b : Bytes)
    (h : Friend.FriendStore.isFriend (fabricAfter cfg gateIds evs).zone.friends a b = true) :
    a ≠ b ∧ Friend.FriendStore.isFriend (fabricAfter cfg gateIds evs).zone.friends b a = true ∧
      (Consenting cfg (fabricAfter cfg gateIds evs).history a b ∨
        Consenting cfg (fabricAfter cfg gateIds evs).history b a) := by
  have hknown := fabricAfter_known cfg gateIds evs
  have hauth := hknown.authentic
  have hconsent : Friend.Consented
      ((fabricAfter cfg gateIds evs).history.flatMap fun e => cfg.friendOps e.draws e.request)
      (fabricAfter cfg gateIds evs).zone.friends := by
    rw [hknown.friends]
    refine Friend.friendAfter_consented _ fun op hop => ?_
    obtain ⟨e, he, hop⟩ := List.mem_flatMap.mp hop
    exact acts_plain hauth he (Or.inr (List.mem_map.mpr ⟨op, hop, rfl⟩))
  obtain ⟨hne, hback, hagreed⟩ := hconsent.agreed h
  exact ⟨hne, hback, hagreed.imp (consenting_of_accepted hauth) (consenting_of_accepted hauth)⟩

/-- Vera asks Kim, and Kim accepts. -/
def veraAsksKim : List FabricEvent :=
  signOn (str "a1") (str "vera") 97 isAlphaNum_a ++ signOn (str "a2") (str "kim") 98 isAlphaNum_b ++
    [.receive (str "a1") (str "c1") (str "friend.add")
        (stringField 1 (idOf 97) ++ stringField 2 (idOf 98)) (str "r3") 3000,
      .serve 0 (drawsAt 3 99 isAlphaNum_c), .finish 0,
      .receive (str "a2") (str "c1") (str "friend.handle_request")
        (stringField 1 (idOf 98) ++ stringField 2 (str "req_" ++ List.replicate 12 99) ++ [24, 1])
        (str "r4") 4000,
      .serve 0 (drawsAt 4 100 isAlphaNum_d), .finish 0]

theorem fabric_friends_vera :
    Friend.FriendStore.isFriend
        (fabricAfter plainSetup plainGateIds veraAsksKim).zone.friends (idOf 97) (idOf 98) = true ∧
      Friend.FriendStore.isFriend
        (fabricAfter plainSetup plainGateIds veraAsksKim).zone.friends (idOf 98) (idOf 97) = true :=
  have h : Friend.FriendStore.isFriend
      (fabricAfter plainSetup plainGateIds veraAsksKim).zone.friends (idOf 97) (idOf 98) = true := by
    decide +kernel
  ⟨h, (fabric_friends plainSetup plainGateIds veraAsksKim _ _ h).2.1⟩

end SwiftChat.Path
