import SwiftChat.Base.OrderedMap
import SwiftChat.Base.Run
import SwiftChat.Utils.Encoding
import SwiftChat.Utils.Strings
import Mathlib.Data.List.DropRight

/-! The configuration of a service: the lines of its file, and the environment that overrides them. -/
namespace SwiftChat.Config
open Base Utils
variable {s p r key value : Bytes} {c : UInt8}

/-- `std::toupper` on an unsigned char. -/
def toUpper (c : UInt8) : UInt8 := if 97 ≤ c && c ≤ 122 then c - 32 else c

def isBlank (c : UInt8) : Bool := c = 32 || c = 9 || c = 13 || c = 10

/-- `Trim`: from the first to the last character that is not blank. -/
def trim (s : Bytes) : Bytes := (s.dropWhile isBlank).rdropWhile isBlank

/-- What is cut off is blank, and what is left begins and ends with characters that are not. -/
theorem trim_spec (s : Bytes) : ∃ a b, s = a ++ trim s ++ b ∧ (∀ c ∈ a ++ b, isBlank c) ∧
    (∀ c ∈ (trim s).head?, ¬ isBlank c) ∧ ∀ c ∈ (trim s).getLast?, ¬ isBlank c := by
  refine ⟨s.takeWhile isBlank, (s.dropWhile isBlank).rtakeWhile isBlank, ?_, ?_, ?_, ?_⟩
  · rw [List.append_assoc, trim, List.rdropWhile_append_rtakeWhile, List.takeWhile_append_dropWhile]
  · intro c hc
    rcases List.mem_append.mp hc with hc | hc
    · exact List.mem_takeWhile_imp hc
    · exact List.mem_rtakeWhile_imp hc
  · intro c hc
    obtain ⟨rest, hrest⟩ := List.rdropWhile_prefix isBlank (l := s.dropWhile isBlank)
    have hhead : (s.dropWhile isBlank).head? = some c := by
      rw [← hrest, List.head?_append, show ((s.dropWhile isBlank).rdropWhile isBlank).head? = some c
        from hc]
      rfl
    have hnot := List.head?_dropWhile_not isBlank s
    rw [hhead] at hnot
    simpa using hnot
  · intro c hc
    have hne : trim s ≠ [] := by
      intro hnil
      rw [hnil] at hc
      cases hc
    have hlast := List.rdropWhile_last_not isBlank (s.dropWhile isBlank) hne
    rw [List.getLast?_eq_some_getLast hne] at hc
    cases hc
    exact hlast

def toLowerKey (key : Bytes) : Bytes := key.map toLower

theorem toLower_toLower (c : UInt8) : toLower (toLower c) = toLower c := by
  have hall : ∀ n < 256, toLower (toLower (UInt8.ofNat n)) = toLower (UInt8.ofNat n) := by
    decide +kernel
  have hc := hall c.toNat c.toNat_lt
  rwa [UInt8.ofNat_toNat] at hc

/-- The two foldings have the same classes. -/
theorem toLower_toUpper (c : UInt8) : toLower (toUpper c) = toLower c := by
  have hall : ∀ n < 256, toLower (toUpper (UInt8.ofNat n)) = toLower (UInt8.ofNat n) := by
    decide +kernel
  have hc := hall c.toNat c.toNat_lt
  rwa [UInt8.ofNat_toNat] at hc

theorem toUpper_toLower (c : UInt8) : toUpper (toLower c) = toUpper c := by
  have hall : ∀ n < 256, toUpper (toLower (UInt8.ofNat n)) = toUpper (UInt8.ofNat n) := by
    decide +kernel
  have hc := hall c.toNat c.toNat_lt
  rwa [UInt8.ofNat_toNat] at hc

theorem toLowerKey_toLowerKey (key : Bytes) : toLowerKey (toLowerKey key) = toLowerKey key := by
  rw [toLowerKey, toLowerKey, List.map_map]
  exact List.map_congr_left (fun c _ => toLower_toLower c)

theorem toLowerKey_eq_nil : toLowerKey key = [] ↔ key = [] := List.map_eq_nil_iff

/-- The keys of the map are not empty, and in lower case. -/
structure KeyValueConfig where
  map : OrderedMap Bytes Bytes := OrderedMap.empty
  keys : ∀ key value, map.get key = some value → key ≠ [] ∧ toLowerKey key = key

namespace KeyValueConfig

def empty : KeyValueConfig := ⟨OrderedMap.empty, by rintro _ _ ⟨⟩⟩

/-- An assignment to `map_[ToLowerKey(key)]`. -/
def set (config : KeyValueConfig) (key value : Bytes) (h : key ≠ []) : KeyValueConfig where
  map := config.map.put (toLowerKey key) value
  keys := by
    intro k v hget
    rw [OrderedMap.get_put] at hget
    split at hget
    · rename_i hk
      subst hk
      exact ⟨mt toLowerKey_eq_nil.mp h, toLowerKey_toLowerKey key⟩
    · exact config.keys k v hget

/-- The body of the loop of `LoadFile`. -/
def loadLine (config : KeyValueConfig) (line : Bytes) : KeyValueConfig :=
  let line := trim line
  if line = [] ∨ line.head? = some 35 then config
  else
    match firstIn [61] line with
    | none => config
    | some eq =>
      let key := trim (line.take eq)
      let value := trim (line.drop (eq + 1))
      if h : key = [] then config else config.set key value h

def loadLines : Nat → Stream → KeyValueConfig → Option KeyValueConfig
  | 0, _, _ => none
  | fuel + 1, f, config =>
    match getline f 10 with
    | some (line, f) => loadLines fuel f (config.loadLine line)
    | none => some config

/-- `LoadFile`; the text is `none` when the file cannot be opened. -/
def loadFile (fuel : Nat) (config : KeyValueConfig) : Option Bytes → Option KeyValueConfig
  | none => some config
  | some text => loadLines fuel ⟨text, false⟩ config

/-- The body of the loop of `ApplyEnvOverrides`. -/
def applyEnv (prefixUpper : Bytes) (config : KeyValueConfig) (env : Bytes) : KeyValueConfig :=
  match firstIn [61] env with
  | none => config
  | some eq =>
    let nameUpper := (env.take eq).map toUpper
    let value := env.drop (eq + 1)
    if h : nameUpper.length ≤ prefixUpper.length then config
    else if nameUpper.take prefixUpper.length ≠ prefixUpper then config
    else config.set (nameUpper.drop prefixUpper.length) value (by simpa using h)

def applyEnvOverrides (config : KeyValueConfig) (environ : List Bytes) (envPrefix : Bytes) :
    KeyValueConfig :=
  environ.foldl (applyEnv (envPrefix.map toUpper)) config

/-- `Load`. -/
def load (fuel : Nat) (config : KeyValueConfig) (text : Option Bytes) (environ : List Bytes)
    (envPrefix : Bytes) : Option KeyValueConfig :=
  (config.loadFile fuel text).map (fun config => config.applyEnvOverrides environ envPrefix)

def get (config : KeyValueConfig) (key defaultVal : Bytes) : Bytes :=
  (config.map.get (toLowerKey key)).getD defaultVal

end KeyValueConfig

/-! What the file and the environment say of a key. -/

/-- The text in front of the first `c`, and the text behind it. -/
def cut (c : UInt8) (s : Bytes) : Option (Bytes × Bytes) :=
  match s.dropWhile (· ≠ c) with
  | [] => none
  | _ :: rest => some (s.takeWhile (· ≠ c), rest)

/-- Equality up to letter case. -/
def SameUpToCase (a b : Bytes) : Prop := toLowerKey a = toLowerKey b

instance (a b : Bytes) : Decidable (SameUpToCase a b) :=
  inferInstanceAs (Decidable (toLowerKey a = toLowerKey b))

/-- The value that a line of the file gives the key. -/
def valueInLine (key line : Bytes) : Option Bytes :=
  if (trim line).head? = some 35 then none
  else
    match cut 61 (trim line) with
    | none => none
    | some (k, v) => if SameUpToCase (trim k) key then some (trim v) else none

/-- The value that an entry of the environment gives the variable. -/
def valueInEntry (name entry : Bytes) : Option Bytes :=
  match cut 61 entry with
  | none => none
  | some (n, v) => if SameUpToCase n name then some v else none

def valueInFile (text : Bytes) (key : Bytes) : Option Bytes :=
  ((text.splitOn 10).filterMap (valueInLine key)).getLast?

def valueInEnvironment (environ : List Bytes) (name : Bytes) : Option Bytes :=
  (environ.filterMap (valueInEntry name)).getLast?

/-- The search for a character and the cut at it. -/
theorem cut_cases (c : UInt8) (s : Bytes) :
    firstIn [c] s = none ∧ cut c s = none ∨
      ∃ p r, firstIn [c] s = some p.length ∧ cut c s = some (p, r) ∧
        s.take p.length = p ∧ s.drop (p.length + 1) = r := by
  cases h : firstIn [c] s with
  | none =>
    have hfree : c ∉ s := fun hc => firstIn_eq_none.mp h ((List.singleton_infix_iff c _).mpr hc)
    have hdrop : s.dropWhile (· ≠ c) = [] :=
      List.dropWhile_eq_nil_iff.mpr (decide_ne_of_free hfree)
    exact Or.inl ⟨rfl, by simp only [cut, hdrop]⟩
  | some i =>
    obtain ⟨p, r, rfl, rfl, hfirst⟩ := firstIn_eq_some h
    have hfree : c ∉ p :=
      fun hc => hfirst.free (by simp) ((List.singleton_infix_iff c _).mpr hc)
    have hall := decide_ne_of_free hfree
    have hdrop : (p ++ [c] ++ r).dropWhile (· ≠ c) = c :: r := by
      rw [List.append_assoc, List.dropWhile_append_of_pos hall]
      exact List.dropWhile_cons_of_neg (by simp)
    have htake : (p ++ [c] ++ r).takeWhile (· ≠ c) = p := by
      rw [List.append_assoc, List.takeWhile_append_of_pos hall]
      simp
    refine Or.inr ⟨p, r, rfl, ?_, by simp, by simp⟩
    simp only [cut, hdrop, htake]

/-- The pieces between the newlines. -/
theorem eq_splitOn {ps : List Bytes} (h : Pieces [c] s ps) : ps = s.splitOn c := by
  have hfree : ∀ p ∈ ps, c ∉ p := by
    intro p hp hc
    exact h.free (by simp) p hp ((List.singleton_infix_iff c _).mpr hc)
  rw [← h.intercalate_eq]
  exact (List.splitOn_intercalate c hfree h.ne_nil).symm

namespace KeyValueConfig
variable {config : KeyValueConfig} {n : Nat}

/-- What the map holds under a key. -/
def look (key : Bytes) (config : KeyValueConfig) : Option Bytes := config.map.get (toLowerKey key)

theorem look_nil (config : KeyValueConfig) : config.look [] = none := by
  cases h : config.look [] with
  | none => rfl
  | some v => exact absurd rfl (config.keys _ _ h).1

theorem look_set {k : Bytes} (h : k ≠ []) :
    (config.set k value h).look key =
      (if SameUpToCase k key then some value else none).or (config.look key) := by
  rw [look, set, OrderedMap.get_put]
  by_cases hk : SameUpToCase k key
  · rw [if_pos hk, if_pos (Eq.symm hk)]
    rfl
  · rw [if_neg hk, if_neg (fun he => hk (Eq.symm he))]
    rfl

theorem look_loadLine (hkey : key ≠ []) (config : KeyValueConfig) (line : Bytes) :
    (config.loadLine line).look key = (valueInLine key line).or (config.look key) := by
  unfold loadLine valueInLine
  by_cases hcomment : (trim line).head? = some 35
  · simp [hcomment]
  · rcases cut_cases 61 (trim line) with ⟨hfind, hcut⟩ | ⟨k, v, hfind, hcut, hk, hv⟩
    · simp [hcomment, hfind, hcut]
    · have hne : trim line ≠ [] := by
        intro hnil
        rw [hnil] at hcut
        simp [cut] at hcut
      simp only [hne, hcomment, or_self, if_false, hfind, hcut, hk, hv]
      by_cases hempty : trim k = []
      · have hdiff : ¬ SameUpToCase (trim k) key := by
          intro hsame
          rw [hempty] at hsame
          exact hkey (toLowerKey_eq_nil.mp (Eq.symm hsame))
        simp only [hempty, dif_pos, if_neg (hempty ▸ hdiff), Option.none_or]
      · simp only [hempty, dif_neg, not_false_eq_true]
        exact look_set hempty

theorem splitCharLoop_result (n : Nat) (f : Stream) (result : List Bytes) :
    splitCharLoop c n f result = (splitCharLoop c n f []).map (result ++ ·) := by
  induction n generalizing f result with
  | zero => rfl
  | succ n ih =>
    simp only [splitCharLoop]
    cases getline f c with
    | none => simp
    | some item =>
      simp only [List.nil_append]
      rw [ih item.2 (result ++ [item.1]), ih item.2 [item.1], Option.map_map]
      simp [Function.comp_def]

/-- The loop takes the lines one after the other. -/
theorem loadLines_eq (n : Nat) (f : Stream) (config : KeyValueConfig) :
    loadLines n f config =
      (splitCharLoop 10 n f []).map (fun lines => run loadLine config lines) := by
  induction n generalizing f config with
  | zero => rfl
  | succ n ih =>
    simp only [loadLines, splitCharLoop]
    cases getline f 10 with
    | none => rfl
    | some item =>
      simp only [List.nil_append]
      rw [ih, splitCharLoop_result n item.2 [item.1], Option.map_map]
      rfl

/-- The lines of a text, each read once. The one that `getline` leaves out is empty. -/
theorem loadLines_text (text : Bytes) : ∃ lines,
    (∀ fuel config, text.length + 1 < fuel →
      loadLines fuel ⟨text, false⟩ config = some (run loadLine config lines)) ∧
    text.splitOn 10 = lines ++ droppedPart text 10 := by
  obtain ⟨ps, hps⟩ := exists_pieces (List.cons_ne_nil (10 : UInt8) []) text
  have hlen := hps.length_le (List.cons_ne_nil _ _)
  obtain ⟨lines, -, hlines⟩ := splitCharLoop_eq hps (Nat.lt_succ_self _) []
  refine ⟨lines, ?_, ?_⟩
  · intro fuel config hfuel
    obtain ⟨parts, hloop, hparts⟩ := splitCharLoop_eq hps (n := fuel) (by omega) []
    have hsame : parts = lines := List.append_cancel_right (hparts.symm.trans hlines)
    rw [loadLines_eq, hloop, hsame]
    rfl
  · rw [← eq_splitOn hps, hlines]

theorem valueInLine_nil : valueInLine key [] = none := rfl

theorem filterMap_droppedPart (text : Bytes) :
    (droppedPart text 10).filterMap (valueInLine key) = [] := by
  unfold droppedPart
  split
  · rfl
  · simp [valueInLine_nil]

theorem look_loadFile (config : KeyValueConfig) (text : Option Bytes) :
    ∃ config', (∀ fuel, (text.getD []).length + 1 < fuel →
        config.loadFile fuel text = some config') ∧
      ∀ key, key ≠ [] →
        config'.look key = (valueInFile (text.getD []) key).or (config.look key) := by
  cases text with
  | none => exact ⟨config, fun _ _ => rfl, fun _ _ => rfl⟩
  | some text =>
    obtain ⟨lines, hload, hlines⟩ := loadLines_text text
    refine ⟨run loadLine config lines, fun fuel hfuel => hload fuel config hfuel, ?_⟩
    intro key hkey
    have hvalue : valueInFile text key = (lines.filterMap (valueInLine key)).getLast? := by
      rw [valueInFile, hlines, List.filterMap_append, filterMap_droppedPart, List.append_nil]
    rw [run_overwrite (look_loadLine hkey), Option.getD_some, hvalue]

/-- A name in upper case that begins with the prefix, and what stands behind the prefix. -/
theorem sameUpToCase_append {a b q k : Bytes} (ha : a.length = q.length) :
    SameUpToCase (a ++ b) (q ++ k) ↔ a.map toUpper = q.map toUpper ∧ SameUpToCase (b.map toUpper) k := by
  have hupper : a.map toUpper = q.map toUpper ↔ toLowerKey a = toLowerKey q := by
    constructor
    · intro h
      have hlower := congrArg (List.map toLower) h
      simpa [List.map_map, Function.comp_def, toLower_toUpper, toLowerKey] using hlower
    · intro h
      have hup := congrArg (List.map toUpper) h
      simpa [List.map_map, Function.comp_def, toUpper_toLower, toLowerKey] using hup
  have hb : toLowerKey (b.map toUpper) = toLowerKey b := by
    simp [toLowerKey, Function.comp_def, toLower_toUpper]
  rw [SameUpToCase, SameUpToCase, hb, hupper, toLowerKey, toLowerKey, List.map_append,
    List.map_append]
  constructor
  · intro h
    exact List.append_inj h (by simpa [toLowerKey] using ha)
  · rintro ⟨hstart, hrest⟩
    exact congrArg₂ (· ++ ·) hstart hrest

theorem look_applyEnv (hkey : key ≠ []) (envPrefix : Bytes) (config : KeyValueConfig)
    (env : Bytes) :
    (applyEnv (envPrefix.map toUpper) config env).look key =
      (valueInEntry (envPrefix ++ key) env).or (config.look key) := by
  unfold applyEnv valueInEntry
  rcases cut_cases 61 env with ⟨hfind, hcut⟩ | ⟨name, v, hfind, hcut, hname, hv⟩
  · simp [hfind, hcut]
  · simp only [hfind, hcut, hname, hv]
    have hlong : 0 < key.length := List.length_pos_iff.mpr hkey
    simp only [List.length_map]
    by_cases hshort : name.length ≤ envPrefix.length
    · have hdiff : ¬ SameUpToCase name (envPrefix ++ key) := by
        intro hsame
        have hlen := congrArg List.length hsame
        simp only [toLowerKey, List.length_map, List.length_append] at hlen
        omega
      simp only [dif_pos hshort, if_neg hdiff, Option.none_or]
    · have hsplit := sameUpToCase_append (a := name.take envPrefix.length)
        (b := name.drop envPrefix.length) (q := envPrefix) (k := key)
        (by simp only [List.length_take]; omega)
      rw [List.take_append_drop] at hsplit
      simp only [dif_neg hshort, ← List.map_take, ← List.map_drop]
      by_cases hstart : (name.take envPrefix.length).map toUpper = envPrefix.map toUpper
      · simp only [hstart, ne_eq, not_true_eq_false, if_false]
        rw [look_set]
        simp only [hsplit, hstart, true_and]
      · have hdiff : ¬ SameUpToCase name (envPrefix ++ key) := fun hsame => hstart (hsplit.mp hsame).1
        simp only [ne_eq, hstart, not_false_eq_true, if_true, if_neg hdiff, Option.none_or]

theorem look_applyEnvOverrides (hkey : key ≠ []) (config : KeyValueConfig) (environ : List Bytes)
    (envPrefix : Bytes) :
    (config.applyEnvOverrides environ envPrefix).look key =
      (valueInEnvironment environ (envPrefix ++ key)).or (config.look key) :=
  run_overwrite (look_applyEnv hkey envPrefix)

/-- What a configuration answers once a file and the environment are loaded over it. -/
theorem look_load (config : KeyValueConfig) (text : Option Bytes) (environ : List Bytes)
    (envPrefix : Bytes) : ∃ config',
    (∀ fuel, (text.getD []).length + 1 < fuel →
      config.load fuel text environ envPrefix = some config') ∧
    ∀ key, key ≠ [] → config'.look key = (valueInEnvironment environ (envPrefix ++ key)).or
      ((valueInFile (text.getD []) key).or (config.look key)) := by
  obtain ⟨loaded, hload, hlook⟩ := config.look_loadFile text
  refine ⟨loaded.applyEnvOverrides environ envPrefix, ?_, ?_⟩
  · intro fuel hfuel
    rw [load, hload fuel hfuel]
    rfl
  · intro key hkey
    rw [look_applyEnvOverrides hkey, hlook key hkey]

end KeyValueConfig

/-- The environment comes first, then the file, then the default; the empty key has no value. -/
theorem load_get (text : Option Bytes) (environ : List Bytes) (envPrefix : Bytes) :
    ∃ config, (∀ fuel, (text.getD []).length + 1 < fuel →
        KeyValueConfig.empty.load fuel text environ envPrefix = some config) ∧
      ∀ key defaultVal, config.get key defaultVal =
        if key = [] then defaultVal
        else ((valueInEnvironment environ (envPrefix ++ key)).or
          (valueInFile (text.getD []) key)).getD defaultVal := by
  obtain ⟨config, hload, hlook⟩ := KeyValueConfig.empty.look_load text environ envPrefix
  refine ⟨config, hload, ?_⟩
  intro key defaultVal
  have hget : config.get key defaultVal = (config.look key).getD defaultVal := rfl
  rw [hget]
  by_cases hkey : key = []
  · subst hkey
    rw [config.look_nil, if_pos rfl, Option.getD_none]
  · have hempty : KeyValueConfig.empty.look key = none := rfl
    rw [if_neg hkey, hlook key hkey, hempty, Option.or_none]

/-- A variable with no name behind the prefix. -/
theorem load_get_empty : ¬ ∀ (text : Bytes) (environ : List Bytes) (envPrefix key defaultVal : Bytes),
    ∃ config, KeyValueConfig.empty.load (text.length + 2) (some text) environ envPrefix = some config ∧
      config.get key defaultVal =
        ((valueInEnvironment environ (envPrefix ++ key)).or (valueInFile text key)).getD defaultVal := by
  intro h
  obtain ⟨config, hload, hget⟩ := h [] [str "FILESVR_=9101"] (str "FILESVR_") [] []
  rw [List.length_nil, Nat.zero_add] at hload
  have hvalue : ((valueInEnvironment [str "FILESVR_=9101"] (str "FILESVR_" ++ [])).or
      (valueInFile [] [])).getD [] = str "9101" := by decide +kernel
  have hempty : (KeyValueConfig.empty.load 2 (some []) [str "FILESVR_=9101"] (str "FILESVR_")).map
      (fun config => config.get [] []) = some [] := by decide +kernel
  rw [hload, Option.map_some, hget, hvalue] at hempty
  exact absurd hempty (by decide +kernel)

end SwiftChat.Config
