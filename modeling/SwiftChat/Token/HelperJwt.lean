import SwiftChat.Jwt
import SwiftChat.Token.JwtHelper

/-! The common token helper, as the services rely on it. -/
namespace SwiftChat.Token
open Base
variable {L : Libraries} {ms iat now hours : Int} {secret token u text : Bytes}

/-- What the tokens of the services take of the JSON library: a payload can be written, and one that
was written is parsed again. Only texts reach the helper, as the fields of the requests are; bytes
that are none, which the library would throw on, are not told apart from them. -/
structure Writes (L : Libraries) : Prop where
  dump : ∀ j, L.dump j ≠ none
  parse : ∀ ms u hours text, L.dump (payload ms u hours (str "swift-online")) = some text →
    L.parse text = some (payload ms u hours (str "swift-online"))

/-- `JwtCreate` with its default issuer, in the second `iat`. -/
def createToken (L : Libraries) (secret u : Bytes) (iat hours : Int) : Bytes :=
  (jwtCreate L (iat * 1000) u secret hours (str "swift-online")).getD []

/-- The user and the end of a token that `JwtVerify` accepts in the second of its end. -/
def readToken (L : Libraries) (secret token : Bytes) : Option (Bytes × Int) :=
  let exp := (jwtVerify L 0 token secret).exp
  let p := jwtVerify L (exp * 1000) token secret
  if p.valid then some (p.userId, exp) else none

/-- What `JwtVerify` is asked for: the user, if the token is valid in the second `now`. -/
def verifyToken (L : Libraries) (secret token : Bytes) (now : Int) : Option Bytes :=
  let p := jwtVerify L (now * 1000) token secret
  if p.valid then some p.userId else none

theorem tdiv_seconds (z : Int) : (z * 1000).tdiv 1000 = z := Int.mul_tdiv_cancel z (by decide)

/-- Of a payload only the comparison of its end with the clock depends on the time. -/
theorem readPayload_cases (p : JsonObject) :
    (∀ ms, (readPayload ms p).valid = false) ∨
    ∃ u issuer iat exp, u ≠ [] ∧
      ∀ ms, readPayload ms p = ⟨u, issuer, iat, exp, decide (ms.tdiv 1000 ≤ exp)⟩ := by
  unfold readPayload
  cases p.stringValue "sub" [] with
  | none => exact Or.inl fun _ => rfl
  | some u =>
    cases p.stringValue "iss" [] with
    | none => exact Or.inl fun _ => rfl
    | some issuer =>
      cases p.intValue 32 "iat" 0 with
      | none => exact Or.inl fun _ => rfl
      | some iat =>
        cases p.intValue 32 "exp" 0 with
        | none => exact Or.inl fun _ => rfl
        | some exp =>
          dsimp only
          by_cases hissuer : issuer ≠ str "swift-online" ∧ issuer ≠ str "swift-auth"
          · refine Or.inl fun ms => ?_
            rw [if_pos hissuer]
            split <;> rfl
          by_cases hu : u = []
          · refine Or.inl fun ms => ?_
            rw [if_neg hissuer, if_pos hu]
            split <;> rfl
          · refine Or.inr ⟨u, issuer, iat, exp, hu, fun ms => ?_⟩
            rw [if_neg hissuer, if_neg hu]
            by_cases hlate : exp < ms.tdiv 1000
            · rw [if_pos hlate, decide_eq_false (by omega)]
            · rw [if_neg hlate, decide_eq_true (by omega)]

/-- So it is for a token. -/
theorem jwtVerify_cases (L : Libraries) (secret token : Bytes) :
    (∀ ms, (jwtVerify L ms token secret).valid = false) ∨
    ∃ u issuer iat exp, u ≠ [] ∧
      ∀ ms, jwtVerify L ms token secret = ⟨u, issuer, iat, exp, decide (ms.tdiv 1000 ≤ exp)⟩ := by
  cases hdot1 : findFrom token [46] 0 with
  | none =>
    simp only [jwtVerify, hdot1]
    exact Or.inl fun _ => rfl
  | some dot1 =>
    cases hdot2 : findFrom token [46] (dot1 + 1) with
    | none =>
      simp only [jwtVerify, hdot1, hdot2]
      exact Or.inl fun _ => rfl
    | some dot2 =>
      simp only [jwtVerify, hdot1, hdot2]
      by_cases hsig : token.drop (dot2 + 1) ≠ signature L secret (token.take dot2)
      · simp only [if_pos hsig]
        exact Or.inl fun _ => rfl
      · simp only [if_neg hsig]
        cases L.parse (base64UrlDecode ((token.drop (dot1 + 1)).take (dot2 - dot1 - 1))) with
        | none => exact Or.inl fun _ => rfl
        | some p => exact readPayload_cases p

/-- A token is read as it is verified at each time. -/
theorem verifyToken_eq (L : Libraries) (secret token : Bytes) (now : Int) :
    verifyToken L secret token now =
      (readToken L secret token).bind fun r => if now ≤ r.2 then some r.1 else none := by
  unfold verifyToken readToken
  rcases jwtVerify_cases L secret token with hnever | ⟨u, issuer, iat, exp, _, hread⟩
  · simp only [hnever, Bool.false_eq_true, if_false, Option.bind_none]
  · simp only [hread, tdiv_seconds, Int.le_refl, decide_true, if_true, Option.bind_some,
      decide_eq_true_eq]

theorem readToken_named (exp : Int) (h : readToken L secret token = some (u, exp)) : u ≠ [] := by
  unfold readToken at h
  rcases jwtVerify_cases L secret token with hnever | ⟨v, issuer, iat, exp', hv, hread⟩
  · simp only [hnever, Bool.false_eq_true, if_false] at h
    cases h
  · simp only [hread, tdiv_seconds, Int.le_refl, decide_true, if_true] at h
    obtain ⟨rfl, _⟩ := Prod.mk.inj (Option.some.inj h)
    exact hv

theorem createToken_eq (h : Writes L) (secret u : Bytes) (iat hours : Int) :
    ∃ headerText text, L.dump (payload (iat * 1000) u hours (str "swift-online")) = some text ∧
      createToken L secret u iat hours =
        base64UrlEncode headerText ++ 46 :: base64UrlEncode text ++ 46 ::
          signature L secret (base64UrlEncode headerText ++ 46 :: base64UrlEncode text) := by
  obtain ⟨headerText, hheader⟩ := Option.ne_none_iff_exists'.mp (h.dump header)
  obtain ⟨text, htext⟩ := Option.ne_none_iff_exists'.mp
    (h.dump (payload (iat * 1000) u hours (str "swift-online")))
  refine ⟨headerText, text, htext, ?_⟩
  rw [createToken, jwtCreate_eq hheader htext, Option.getD_some]

theorem isUrlChar_printable {b : UInt8} (h : isUrlChar b = true) : 32 < b := by
  by_contra hle
  have hall : ∀ n < 33, isUrlChar (UInt8.ofNat n) = false := by decide
  have hb : b.toNat < 33 := by
    have := UInt8.le_iff_toNat_le.mp (not_lt.mp hle)
    exact Nat.lt_succ_of_le this
  have hfalse := hall b.toNat hb
  rw [UInt8.ofNat_toNat, h] at hfalse
  cases hfalse

theorem createToken_printable (h : Writes L) (u : Bytes) (iat hours : Int) :
    ∀ b ∈ createToken L secret u iat hours, 32 < b := by
  obtain ⟨headerText, text, _, heq⟩ := createToken_eq h secret u iat hours
  have hencoded : ∀ s, ∀ b ∈ base64UrlEncode s, 32 < b :=
    fun _ _ hb => isUrlChar_printable (isUrlChar_of_mem_encode hb)
  intro b hb
  rw [heq, List.append_assoc] at hb
  rcases List.mem_append.mp hb with hb | hb
  · exact hencoded _ b hb
  rcases List.mem_cons.mp hb with rfl | hb
  · decide
  rcases List.mem_append.mp hb with hb | hb
  · exact hencoded _ b hb
  rcases List.mem_cons.mp hb with rfl | hb
  · decide
  · exact hencoded _ b hb

theorem readToken_create (h : Writes L) (hu : u ≠ []) :
    readToken L secret (createToken L secret u iat hours) =
      some (u, wrap 32 (iat + hours * 3600)) := by
  obtain ⟨headerText, text, htext, heq⟩ := createToken_eq h secret u iat hours
  have hexp : expiresAt (iat * 1000) hours = iat + hours * 3600 := by
    rw [expiresAt, issuedAt, tdiv_seconds]
  have hread : ∀ ms, jwtVerify L ms (createToken L secret u iat hours) secret =
      ⟨u, tokenIssuer (str "swift-online"), wrap 32 (issuedAt (iat * 1000)),
        wrap 32 (iat + hours * 3600), decide (ms.tdiv 1000 ≤ wrap 32 (iat + hours * 3600))⟩ := by
    intro ms
    rw [heq, jwtVerify_created (h.parse _ _ _ _ htext), readPayload_payload hu (Or.inr (Or.inl rfl)),
      hexp]
  simp only [readToken, hread, tdiv_seconds, Int.le_refl, decide_true, if_true]

/-- The helper with one secret. Its `verify` is `JwtVerify` by `verifyToken_eq`. -/
def helperJwt (L : Libraries) (secret : Bytes) (h : Writes L) : Jwt where
  create := createToken L secret
  read := readToken L secret
  create_printable := createToken_printable h
  read_nil := rfl
  read_named _ _ := readToken_named
  read_create _ _ _ := readToken_create h

/-- The services verify tokens with `JwtVerify`. -/
theorem helperJwt_verify (h : Writes L) (token : Bytes) (now : Int) :
    (helperJwt L secret h).verify token now = verifyToken L secret token now :=
  (verifyToken_eq L secret token now).symm

/-! The JSON text of a payload whose user id needs no escapes, to run the helper on. -/

def numberAt (j : JsonObject) (key : String) : Int :=
  match j.field key with
  | some (.number n) => n
  | _ => 0

def textAt (j : JsonObject) (key : String) : Bytes := (j.stringValue key []).getD []

def payloadText (j : JsonObject) : Bytes :=
  str "\x7b\"exp\":" ++ (formatInt (numberAt j "exp") ++ (str ",\"iat\":" ++
    (formatInt (numberAt j "iat") ++ (str ",\"iss\":\"swift-online\",\"sub\":\"" ++
      (textAt j "sub" ++ str "\"\x7d")))))

def numberOf (digits : Bytes) : Int :=
  if digits.head? = some 45 then -(decVal digits.tail : Int) else decVal digits

/-- The numbers up to the next comma, and the text in front of the last two characters. -/
def parsePayload (text : Bytes) : JsonObject :=
  let exp := (text.drop (str "\x7b\"exp\":").length).takeWhile (· ≠ 44)
  let rest := (text.drop (str "\x7b\"exp\":").length).drop (exp.length + (str ",\"iat\":").length)
  let iat := rest.takeWhile (· ≠ 44)
  let user := rest.drop (iat.length + (str ",\"iss\":\"swift-online\",\"sub\":\"").length)
  [("exp", .number (numberOf exp)), ("iat", .number (numberOf iat)),
    ("iss", .string (str "swift-online")), ("sub", .string (user.take (user.length - 2)))]

/-- With a constant digest. -/
def textLibraries (digest : Bytes) : Libraries where
  hmac _ _ := digest
  dump j := some (if j = header then str "\x7b\"alg\":\"HS256\",\"typ\":\"JWT\"\x7d"
    else payloadText j)
  parse text := some (parsePayload text)

theorem numberOf_formatInt (z : Int) : numberOf (formatInt z) = z := by
  have hvalue : (decVal (padDec (digitCount z.natAbs z.natAbs) z.natAbs) : Int) = z.natAbs := by
    rw [decVal_digits]
  unfold numberOf formatInt
  by_cases hz : z < 0
  · simp only [if_pos hz, List.head?_cons, if_true, List.tail_cons, hvalue]
    omega
  · have hhead : (padDec (digitCount z.natAbs z.natAbs) z.natAbs).head? ≠ some 45 :=
      fun h => not_digit_minus (List.mem_of_head? h)
    simp only [if_neg hz, if_neg hhead, hvalue]
    omega

/-- A number ends at the comma behind it. -/
theorem takeWhile_number {sep : Bytes} (hsep : sep.head? = some 44) (z : Int) (rest : Bytes) :
    (formatInt z ++ (sep ++ rest)).takeWhile (· ≠ 44) = formatInt z := by
  obtain ⟨tail, rfl⟩ : ∃ tail, sep = 44 :: tail := by
    cases sep with
    | nil => cases hsep
    | cons b tail => exact ⟨tail, by rw [Option.some.inj hsep]⟩
  have hcomma : (44 : UInt8) ∉ formatInt z := not_mem_formatInt (by decide) (by decide)
  rw [List.takeWhile_append_of_pos]
  · simp
  · intro b hb
    have hne : b ≠ 44 := by
      rintro rfl
      exact hcomma hb
    simpa using hne

theorem drop_number (sep : Bytes) (z : Int) (rest : Bytes) :
    (formatInt z ++ (sep ++ rest)).drop ((formatInt z).length + sep.length) = rest := by
  rw [← List.append_assoc]
  exact List.drop_left' List.length_append

theorem take_user (user : Bytes) :
    (user ++ str "\"\x7d").take ((user ++ str "\"\x7d").length - 2) = user := by
  rw [List.length_append]
  exact List.take_left' rfl

theorem parsePayload_payloadText (ms hours : Int) (u : Bytes) :
    parsePayload (payloadText (payload ms u hours (str "swift-online"))) =
      payload ms u hours (str "swift-online") := by
  have hend : (str ",\"iat\":").head? = some 44 := rfl
  have hend' : (str ",\"iss\":\"swift-online\",\"sub\":\"").head? = some 44 := rfl
  simp only [parsePayload, payloadText, List.drop_left, takeWhile_number hend,
    takeWhile_number hend', drop_number, take_user, numberOf_formatInt]
  rfl

theorem payload_ne_header (ms hours : Int) (u issuer : Bytes) : payload ms u hours issuer ≠ header := by
  intro he
  have hfirst := congrArg List.head? he
  simp [payload, header] at hfirst

theorem textLibraries_writes (digest : Bytes) : Writes (textLibraries digest) where
  dump j h := by cases h
  parse ms u hours text h := by
    have hother := payload_ne_header ms hours u (str "swift-online")
    simp only [textLibraries, if_neg hother, Option.some.injEq] at h
    rw [← h]
    exact congrArg some (parsePayload_payloadText ms hours u)

end SwiftChat.Token
