import SwiftChat.Base.Hex
import SwiftChat.Base.Matching
import SwiftChat.Token.Base64Url

/-! Signed tokens as the common helper creates and verifies them. -/
namespace SwiftChat.Token
open Base
variable {s : Bytes}

/-- What the helper takes from other libraries: the HMAC-SHA256 digest of a text, and writing and
parsing JSON objects, where `none` is an exception. -/
structure Libraries where
  hmac : (key data : Bytes) → Bytes
  dump : JsonObject → Option Bytes
  parse : Bytes → Option JsonObject

structure JwtPayload where
  userId : Bytes
  issuer : Bytes
  iat : Int
  exp : Int
  valid : Bool
deriving DecidableEq

/-- The digest in hexadecimal, each byte printed with `%02x`. -/
def hmacSha256 (L : Libraries) (key data : Bytes) : Bytes := (L.hmac key data).flatMap byteHex

/-- The value of a hexadecimal digit; zero for anything else. -/
def nibble (c : UInt8) : Nat :=
  if 48 ≤ c && c ≤ 57 then c.toNat - 48
  else if 97 ≤ c && c ≤ 102 then c.toNat - 97 + 10
  else if 65 ≤ c && c ≤ 70 then c.toNat - 65 + 10
  else 0

def hexDecode : Bytes → Bytes
  | [] => []
  | [_] => []
  | a :: b :: rest => UInt8.ofNat ((nibble a <<< 4) ||| nibble b) :: hexDecode rest

/-- The third part of a token with the given first two. -/
def signature (L : Libraries) (secret msg : Bytes) : Bytes :=
  base64UrlEncode (hexDecode (hmacSha256 L secret msg))

def header : JsonObject := [("alg", .string (str "HS256")), ("typ", .string (str "JWT"))]

/-- The issuer that a token carries. -/
def tokenIssuer (issuer : Bytes) : Bytes := if issuer = [] then str "swift-online" else issuer

/-- The times of a token that is created at `ms` milliseconds, in seconds. -/
def issuedAt (ms : Int) : Int := ms.tdiv 1000

def expiresAt (ms expireHours : Int) : Int := issuedAt ms + expireHours * 3600

def payload (ms : Int) (userId : Bytes) (expireHours : Int) (issuer : Bytes) : JsonObject :=
  [("exp", .number (expiresAt ms expireHours)), ("iat", .number (issuedAt ms)),
    ("iss", .string (tokenIssuer issuer)), ("sub", .string userId)]

/-- `JwtCreate` at `ms` milliseconds. -/
def jwtCreate (L : Libraries) (ms : Int) (userId secret : Bytes) (expireHours : Int)
    (issuer : Bytes) : Option Bytes :=
  match L.dump header, L.dump (payload ms userId expireHours issuer) with
  | some headerText, some payloadText =>
    let msg := base64UrlEncode headerText ++ 46 :: base64UrlEncode payloadText
    some (msg ++ 46 :: signature L secret msg)
  | _, _ => none

def JwtPayload.invalid : JwtPayload := ⟨[], [], 0, 0, false⟩

/-- The fields are read in turn; a field of the wrong kind ends the reading with what was read. The
times are read into the type of the default `0`, an `int`. -/
def readPayload (ms : Int) (p : JsonObject) : JwtPayload :=
  match p.stringValue "sub" [] with
  | none => .invalid
  | some userId =>
    match p.stringValue "iss" [] with
    | none => ⟨userId, [], 0, 0, false⟩
    | some issuer =>
      match p.intValue 32 "iat" 0 with
      | none => ⟨userId, issuer, 0, 0, false⟩
      | some iat =>
        match p.intValue 32 "exp" 0 with
        | none => ⟨userId, issuer, iat, 0, false⟩
        | some exp =>
          if exp < ms.tdiv 1000 then ⟨userId, issuer, iat, exp, false⟩
          else if issuer ≠ str "swift-online" ∧ issuer ≠ str "swift-auth" then
            ⟨userId, issuer, iat, exp, false⟩
          else if userId = [] then ⟨userId, issuer, iat, exp, false⟩
          else ⟨userId, issuer, iat, exp, true⟩

/-- `JwtVerify` at `ms` milliseconds. -/
def jwtVerify (L : Libraries) (ms : Int) (token secret : Bytes) : JwtPayload :=
  match findFrom token [46] 0 with
  | none => .invalid
  | some dot1 =>
    match findFrom token [46] (dot1 + 1) with
    | none => .invalid
    | some dot2 =>
      let payloadText := (token.drop (dot1 + 1)).take (dot2 - dot1 - 1)
      let sig := token.drop (dot2 + 1)
      if sig ≠ signature L secret (token.take dot2) then .invalid
      else
        match L.parse (base64UrlDecode payloadText) with
        | none => .invalid
        | some p => readPayload ms p

variable {L : Libraries} {ms n expireHours : Int} {userId secret issuer headerText text : Bytes}

/-! What a token that was created is taken apart into. -/

theorem dot_not_mem_encode (s : Bytes) : 46 ∉ base64UrlEncode s :=
  fun h => (isUrlChar_ne (isUrlChar_of_mem_encode h)).2 rfl

/-- The two dots of a token are found where they were put. -/
theorem jwtVerify_parts (headerText payloadText sig secret : Bytes) (ms : Int) :
    jwtVerify L ms (base64UrlEncode headerText ++ 46 :: base64UrlEncode payloadText ++ 46 :: sig)
        secret =
      if sig ≠ signature L secret
          (base64UrlEncode headerText ++ 46 :: base64UrlEncode payloadText) then .invalid
      else
        match L.parse payloadText with
        | none => .invalid
        | some p => readPayload ms p := by
  have hh := dot_not_mem_encode headerText
  have hp := dot_not_mem_encode payloadText
  have hround := base64UrlDecode_encode payloadText
  generalize base64UrlEncode headerText = h at hh
  generalize base64UrlEncode payloadText = p at hp hround
  have hdot1 : findFrom (h ++ 46 :: p ++ 46 :: sig) [46] 0 = some h.length := by
    have := findFrom_singleton (r := p ++ 46 :: sig) [] hh
    simpa using this
  have hdot2 : findFrom (h ++ 46 :: p ++ 46 :: sig) [46] (h.length + 1) =
      some (h.length + 1 + p.length) := by
    have := findFrom_singleton (r := sig) (h ++ [46]) hp
    simpa using this
  have hpayload : ((h ++ 46 :: p ++ 46 :: sig).drop (h.length + 1)).take
      (h.length + 1 + p.length - h.length - 1) = p := by
    rw [show h ++ 46 :: p ++ 46 :: sig = (h ++ [46]) ++ (p ++ 46 :: sig) by simp,
      List.drop_left' (by simp), show h.length + 1 + p.length - h.length - 1 = p.length by omega,
      List.take_left]
  have hsig : (h ++ 46 :: p ++ 46 :: sig).drop (h.length + 1 + p.length + 1) = sig := by
    rw [show h ++ 46 :: p ++ 46 :: sig = (h ++ 46 :: p ++ [46]) ++ sig by simp,
      List.drop_left' (by simp; omega)]
  have hmsg : (h ++ 46 :: p ++ 46 :: sig).take (h.length + 1 + p.length) = h ++ 46 :: p := by
    rw [List.take_left' (by simp; omega)]
  simp only [jwtVerify, hdot1, hdot2, hpayload, hsig, hmsg, hround]

theorem jwtCreate_eq (hheader : L.dump header = some headerText)
    (hpayload : L.dump (payload ms userId expireHours issuer) = some text) :
    jwtCreate L ms userId secret expireHours issuer =
      some (base64UrlEncode headerText ++ 46 :: base64UrlEncode text ++ 46 ::
        signature L secret (base64UrlEncode headerText ++ 46 :: base64UrlEncode text)) := by
  simp only [jwtCreate, hheader, hpayload]

theorem jwtVerify_created (hparse : L.parse text = some (payload ms userId expireHours issuer)) :
    jwtVerify L n (base64UrlEncode headerText ++ 46 :: base64UrlEncode text ++ 46 ::
        signature L secret (base64UrlEncode headerText ++ 46 :: base64UrlEncode text)) secret =
      readPayload n (payload ms userId expireHours issuer) := by
  rw [jwtVerify_parts, if_neg (fun h => h rfl), hparse]

/-- The payload of a created token, as it is read: the times have been cut to 32 bits. -/
theorem readPayload_payload (huser : userId ≠ [])
    (hissuer : issuer = [] ∨ issuer = str "swift-online" ∨ issuer = str "swift-auth") :
    readPayload n (payload ms userId expireHours issuer) =
      ⟨userId, tokenIssuer issuer, wrap 32 (issuedAt ms), wrap 32 (expiresAt ms expireHours),
        decide (n.tdiv 1000 ≤ wrap 32 (expiresAt ms expireHours))⟩ := by
  have hknown : ¬ (tokenIssuer issuer ≠ str "swift-online" ∧
      tokenIssuer issuer ≠ str "swift-auth") := by
    rintro ⟨hne, hne'⟩
    rcases hissuer with rfl | rfl | rfl
    · exact hne rfl
    · exact hne (by decide)
    · exact hne' (by decide)
  have hsub : (payload ms userId expireHours issuer).stringValue "sub" [] = some userId := rfl
  have hiss : (payload ms userId expireHours issuer).stringValue "iss" [] =
      some (tokenIssuer issuer) := rfl
  have hiat : (payload ms userId expireHours issuer).intValue 32 "iat" 0 =
      some (wrap 32 (issuedAt ms)) := rfl
  have hexp : (payload ms userId expireHours issuer).intValue 32 "exp" 0 =
      some (wrap 32 (expiresAt ms expireHours)) := rfl
  simp only [readPayload, hsub, hiss, hiat, hexp, hknown, huser, if_false]
  by_cases hlate : wrap 32 (expiresAt ms expireHours) < n.tdiv 1000
  · rw [if_pos hlate, decide_eq_false (by omega)]
  · rw [if_neg hlate, decide_eq_true (by omega)]

/-! The round trip of a token. -/

/-- A text that JSON can be written with. -/
def IsUtf8 (b : Bytes) : Prop := ∃ text : String, str text = b

def Utf8Object (j : JsonObject) : Prop := ∀ f ∈ j, ∀ b, f.2 = .string b → IsUtf8 b

theorem utf8Object_header : Utf8Object header := by
  intro f hf b hb
  simp only [header, List.mem_cons, List.not_mem_nil, or_false] at hf
  rcases hf with rfl | rfl
  · exact ⟨"HS256", JsonValue.string.inj hb⟩
  · exact ⟨"JWT", JsonValue.string.inj hb⟩

theorem utf8Object_payload (huser : IsUtf8 userId)
    (hissuer : issuer = [] ∨ issuer = str "swift-online" ∨ issuer = str "swift-auth") :
    Utf8Object (payload ms userId expireHours issuer) := by
  intro f hf b hb
  simp only [payload, List.mem_cons, List.not_mem_nil, or_false] at hf
  rcases hf with rfl | rfl | rfl | rfl
  · cases hb
  · cases hb
  · obtain rfl := JsonValue.string.inj hb
    rcases hissuer with rfl | rfl | rfl
    · exact ⟨"swift-online", rfl⟩
    · exact ⟨"swift-online", by decide⟩
    · exact ⟨"swift-auth", by decide⟩
  · obtain rfl := JsonValue.string.inj hb
    exact huser

theorem issuedAt_le_expiresAt (h : 0 ≤ expireHours) : issuedAt ms ≤ expiresAt ms expireHours := by
  rw [expiresAt]
  omega

/-- A token verifies at exactly the times up to its end, and gives back what it was created with,
just when both of its times are values of a 32-bit `int`. -/
theorem jwtVerify_jwtCreate_iff (L : Libraries) (ms expireHours : Int)
    (userId secret issuer : Bytes) (huser : userId ≠ []) (hutf8 : IsUtf8 userId)
    (hhours : 0 ≤ expireHours)
    (hissuer : issuer = [] ∨ issuer = str "swift-online" ∨ issuer = str "swift-auth")
    (hdump : ∀ j, Utf8Object j → L.dump j ≠ none)
    (hparse : ∀ text, L.dump (payload ms userId expireHours issuer) = some text →
      L.parse text = some (payload ms userId expireHours issuer)) :
    ∃ token, jwtCreate L ms userId secret expireHours issuer = some token ∧
      ((∀ n : Int,
        (issuedAt ms ≤ n.tdiv 1000 → n.tdiv 1000 ≤ expiresAt ms expireHours →
          jwtVerify L n token secret =
            ⟨userId, tokenIssuer issuer, issuedAt ms, expiresAt ms expireHours, true⟩) ∧
        (expiresAt ms expireHours < n.tdiv 1000 → (jwtVerify L n token secret).valid = false)) ↔
      Fits 32 (issuedAt ms) ∧ Fits 32 (expiresAt ms expireHours)) := by
  obtain ⟨headerText, hheader⟩ := Option.ne_none_iff_exists'.mp (hdump _ utf8Object_header)
  obtain ⟨text, htext⟩ := Option.ne_none_iff_exists'.mp
    (hdump (payload ms userId expireHours issuer) (utf8Object_payload hutf8 hissuer))
  refine ⟨_, jwtCreate_eq hheader htext, ?_⟩
  simp only [jwtVerify_created (hparse text htext), readPayload_payload huser hissuer]
  constructor
  · intro h
    -- at the time of its creation a token must be valid
    have hnow := (h ms).1 (Int.le_refl _) (issuedAt_le_expiresAt hhours)
    simp only [JwtPayload.mk.injEq, true_and] at hnow
    obtain ⟨hiat, hexp, -⟩ := hnow
    exact ⟨(wrap_eq_iff (by decide)).mp hiat, (wrap_eq_iff (by decide)).mp hexp⟩
  · rintro ⟨hiat, hexp⟩ n
    rw [wrap_of_fits hiat, wrap_of_fits hexp]
    constructor
    · intro _ hle
      rw [decide_eq_true hle]
    · intro hlt
      exact decide_eq_false (by omega)

/-- The libraries' answers around one token: its digest, the texts of its two objects, and the
payload that is parsed from its text. -/
def oneToken (digest : Bytes) (p : JsonObject) (text : Bytes) : Libraries where
  hmac _ _ := digest
  dump j := some (if j = header then str "\x7b\"alg\":\"HS256\",\"typ\":\"JWT\"\x7d" else text)
  parse t := if t = text then some p else none

/-- A token of one day, as the libraries write it. -/
def dayToken : Libraries :=
  oneToken
    [142, 29, 172, 22, 244, 72, 245, 30, 142, 95, 3, 166, 233, 155, 237, 2,
     13, 101, 84, 31, 57, 104, 215, 111, 15, 123, 182, 19, 205, 198, 108, 221]
    (payload 1700000000000 (str "alice") 24 [])
    (str ("\x7b\"exp\":1700086400,\"iat\":1700000000,\"iss\":\"swift-online\"," ++
      "\"sub\":\"alice\"\x7d"))

theorem jwtVerify_jwtCreate_day :
    str "alice" ≠ [] ∧ IsUtf8 (str "alice") ∧ (0 : Int) ≤ 24 ∧
    ∃ token, jwtCreate dayToken 1700000000000 (str "alice") (str "secret") 24 [] = some token ∧
      ((∀ n : Int,
        (issuedAt 1700000000000 ≤ n.tdiv 1000 → n.tdiv 1000 ≤ expiresAt 1700000000000 24 →
          jwtVerify dayToken n token (str "secret") =
            ⟨str "alice", tokenIssuer [], issuedAt 1700000000000, expiresAt 1700000000000 24,
              true⟩) ∧
        (expiresAt 1700000000000 24 < n.tdiv 1000 →
          (jwtVerify dayToken n token (str "secret")).valid = false)) ↔
      Fits 32 (issuedAt 1700000000000) ∧ Fits 32 (expiresAt 1700000000000 24)) := by
  refine ⟨by decide +kernel, ⟨"alice", rfl⟩, by decide, ?_⟩
  apply jwtVerify_jwtCreate_iff dayToken 1700000000000 24 (str "alice") (str "secret") []
  · decide +kernel
  · exact ⟨"alice", rfl⟩
  · decide
  · exact Or.inl rfl
  · intro j _ h
    cases h
  · intro text htext
    have hother : payload 1700000000000 (str "alice") 24 [] ≠ header := by decide +kernel
    simp only [dayToken, oneToken, if_neg hother, Option.some.injEq] at htext ⊢
    rw [if_pos htext.symm]

/-- The payload of a token of twenty years. -/
def longText : Bytes :=
  str ("\x7b\"exp\":2330720000,\"iat\":1700000000,\"iss\":\"swift-online\"," ++
    "\"sub\":\"alice\"\x7d")

def longToken : Libraries :=
  oneToken
    [154, 206, 148, 99, 118, 225, 79, 159, 150, 150, 181, 101, 216, 31, 76, 26,
     219, 164, 247, 170, 219, 124, 110, 18, 85, 120, 122, 161, 190, 2, 48, 248]
    (payload 1700000000000 (str "alice") 175200 []) longText

/-- It ends behind the range of an `int` and is refused in the second it was created in. -/
theorem jwtVerify_long_token :
    ∃ token, jwtCreate longToken 1700000000000 (str "alice") (str "secret") 175200 [] = some token ∧
      expiresAt 1700000000000 175200 = 2330720000 ∧
      jwtVerify longToken 1700000000000 token (str "secret") =
        ⟨str "alice", str "swift-online", 1700000000, -1964247296, false⟩ := by
  have hother : payload 1700000000000 (str "alice") 175200 [] ≠ header := by decide +kernel
  have hdump : longToken.dump (payload 1700000000000 (str "alice") 175200 []) = some longText := by
    simp only [longToken, oneToken, if_neg hother]
  have hparse : longToken.parse longText =
      some (payload 1700000000000 (str "alice") 175200 []) := by
    simp only [longToken, oneToken, if_true]
  refine ⟨_, jwtCreate_eq rfl hdump, by decide, ?_⟩
  rw [jwtVerify_created hparse, readPayload_payload (by decide +kernel) (Or.inl rfl)]
  decide +kernel

end SwiftChat.Token
