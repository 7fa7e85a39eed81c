import SwiftChat.Base.Bytes
import SwiftChat.Base.Matching
import Mathlib.Data.List.TakeWhile

/-! Splitting, joining and replacing in strings. -/
namespace SwiftChat.Utils
open Base
variable {s d t : Bytes} {c : UInt8} {ps : List Bytes} {n : Nat}

/-- The search loop of `Split`: the parts found so far, and the text from `start` on. -/
def splitLoop (str delimiter : Bytes) : Nat → Nat → List Bytes → Option (List Bytes)
  | 0, _, _ => none
  | fuel + 1, start, result =>
    match findFrom str delimiter start with
    | some stop =>
      let part := (str.drop start).take (stop - start)
      splitLoop str delimiter fuel (stop + delimiter.length) (result ++ [part])
    | none => some (result ++ [str.drop start])

/-- `Split` with a text as the delimiter. -/
def split (fuel : Nat) (str delimiter : Bytes) : Option (List Bytes) :=
  if delimiter = [] then some [str] else splitLoop str delimiter fuel 0 []

/-- A `std::stringstream` that is being read: what is left, and its end-of-file flag. -/
structure Stream where
  rest : Bytes
  eof : Bool

/-- `std::getline`: the next item, or `none` when it fails because nothing can be extracted. A
delimiter is extracted and dropped; the end of the text sets the end-of-file flag. -/
def getline (ss : Stream) (delimiter : UInt8) : Option (Bytes × Stream) :=
  if ss.eof = true ∨ ss.rest = [] then none
  else
    let item := ss.rest.takeWhile (· ≠ delimiter)
    match ss.rest.dropWhile (· ≠ delimiter) with
    | [] => some (item, ⟨[], true⟩)
    | _ :: rest => some (item, ⟨rest, false⟩)

def splitCharLoop (delimiter : UInt8) : Nat → Stream → List Bytes → Option (List Bytes)
  | 0, _, _ => none
  | fuel + 1, ss, result =>
    match getline ss delimiter with
    | some (item, ss) => splitCharLoop delimiter fuel ss (result ++ [item])
    | none => some result

/-- `Split` with a character as the delimiter. -/
def splitChar (fuel : Nat) (str : Bytes) (delimiter : UInt8) : Option (List Bytes) :=
  splitCharLoop delimiter fuel ⟨str, false⟩ []

/-- The loop of `Join` behind its first part. -/
def joinLoop (delimiter : Bytes) : Bytes → List Bytes → Bytes
  | result, [] => result
  | result, part :: parts => joinLoop delimiter (result ++ delimiter ++ part) parts

def join (parts : List Bytes) (delimiter : Bytes) : Bytes :=
  match parts with
  | [] => []
  | part :: parts => joinLoop delimiter part parts

/-- The loop of `ReplaceAll`, which edits the text in place and moves behind each insertion. -/
def replaceAllLoop (fromStr toStr : Bytes) : Nat → Nat → Bytes → Option Bytes
  | 0, _, _ => none
  | fuel + 1, pos, result =>
    match findFrom result fromStr pos with
    | some pos =>
      let result := result.take pos ++ toStr ++ result.drop (pos + fromStr.length)
      replaceAllLoop fromStr toStr fuel (pos + toStr.length) result
    | none => some result

def replaceAll (fuel : Nat) (str fromStr toStr : Bytes) : Option Bytes :=
  if fromStr = [] then some str else replaceAllLoop fromStr toStr fuel 0 str

theorem joinLoop_eq (result : Bytes) (ps : List Bytes) :
    joinLoop d result ps = d.intercalate (result :: ps) := by
  induction ps generalizing result with
  | nil => simp [joinLoop]
  | cons p ps ih =>
    rw [joinLoop, ih, List.intercalate_cons_cons]
    cases ps with
    | nil => simp
    | cons q ps => simp [List.intercalate_cons_cons, List.append_assoc]

theorem join_eq : join ps d = d.intercalate ps := by
  cases ps with
  | nil => rfl
  | cons p ps => exact joinLoop_eq p ps

/-- From behind the part that is done with, the loop finds the pieces of what is left. -/
theorem splitLoop_eq (h : Pieces d s ps) (hn : ps.length ≤ n) (done : Bytes) (result : List Bytes) :
    splitLoop (done ++ s) d n done.length result = some (result ++ ps) := by
  induction h generalizing n done result with
  | last h =>
    cases n with
    | zero => simp at hn
    | succ n => simp [splitLoop, findFrom_append, firstIn_eq_none.mpr h]
  | @cut p r ps h tail ih =>
    obtain ⟨n, rfl⟩ := Nat.exists_eq_add_of_le' (Nat.le_trans (Nat.le_add_left 1 ps.length) hn)
    have hrest := ih (n := n) (by simpa using hn) (done ++ p ++ d) (result ++ [p])
    simp only [List.append_assoc, List.length_append] at hrest
    rw [splitLoop, h.findFrom_eq]
    simp only [List.append_assoc, List.drop_left, Nat.add_sub_cancel_left, List.take_left,
      Nat.add_assoc]
    rw [hrest]
    rfl

/-- The edited loop meets the same matches: what it has put in lies behind its position. -/
theorem replaceAllLoop_eq (h : Pieces d s ps) (hn : ps.length ≤ n) (done : Bytes) :
    replaceAllLoop d t n done.length (done ++ s) = some (done ++ t.intercalate ps) := by
  induction h generalizing n done with
  | last h =>
    cases n with
    | zero => simp at hn
    | succ n => simp [replaceAllLoop, findFrom_append, firstIn_eq_none.mpr h]
  | @cut p r ps h tail ih =>
    obtain ⟨n, rfl⟩ := Nat.exists_eq_add_of_le' (Nat.le_trans (Nat.le_add_left 1 ps.length) hn)
    have hrest := ih (n := n) (by simpa using hn) (done ++ p ++ t)
    have hedit : (done ++ (p ++ d ++ r)).take (done.length + p.length) ++ t ++
        (done ++ (p ++ d ++ r)).drop (done.length + p.length + d.length) =
          done ++ p ++ t ++ r := by
      have htake : (done ++ (p ++ d ++ r)).take (done.length + p.length) = done ++ p := by
        rw [show done ++ (p ++ d ++ r) = (done ++ p) ++ (d ++ r) by simp]
        exact List.take_left' (by simp)
      have hdrop : (done ++ (p ++ d ++ r)).drop (done.length + p.length + d.length) = r := by
        rw [show done ++ (p ++ d ++ r) = (done ++ p ++ d) ++ r by simp]
        exact List.drop_left' (by simp [Nat.add_assoc])
      rw [htake, hdrop]
    rw [replaceAllLoop, h.findFrom_eq]
    simp only [hedit]
    rw [List.intercalate_cons_of_ne_nil tail.ne_nil]
    simp only [List.length_append] at hrest
    rw [hrest]
    simp only [List.append_assoc]

theorem split_eq (hd : d ≠ []) (h : Pieces d s ps) (hn : s.length < n) :
    split n s d = some ps := by
  have hlen := h.length_le hd
  rw [split, if_neg hd]
  exact splitLoop_eq h (by omega) [] []

theorem replaceAll_eq (hd : d ≠ []) (h : Pieces d s ps) (hn : s.length < n) :
    replaceAll n s d t = some (join ps t) := by
  have hlen := h.length_le hd
  rw [replaceAll, if_neg hd, join_eq]
  exact replaceAllLoop_eq h (by omega) []

/-- The parts of a text are joined to the text again, none of them contains the delimiter, and
`ReplaceAll` ends and joins the same parts with the new text, which may contain the old one. -/
theorem split_join_replaceAll (s d t : Bytes) (hd : d ≠ []) :
    ∃ parts, (∀ fuel, s.length < fuel → split fuel s d = some parts) ∧ join parts d = s ∧
      (∀ part ∈ parts, ¬ d <:+: part) ∧
      ∀ fuel, s.length < fuel → replaceAll fuel s d t = some (join parts t) := by
  obtain ⟨parts, hparts⟩ := exists_pieces hd s
  refine ⟨parts, ?_, ?_, hparts.free hd, ?_⟩
  · intro fuel hfuel
    exact split_eq hd hparts hfuel
  · rw [join_eq]
    exact hparts.intercalate_eq
  · intro fuel hfuel
    exact replaceAll_eq hd hparts hfuel

/-- Doubling every letter of a text in which the letter is doubled already. -/
theorem split_join_replaceAll_aa :
    str "aa" ≠ [] ∧ ∃ parts,
      (∀ fuel, (str "aaab").length < fuel → split fuel (str "aaab") (str "aa") = some parts) ∧
      join parts (str "aa") = str "aaab" ∧ (∀ part ∈ parts, ¬ str "aa" <:+: part) ∧
      ∀ fuel, (str "aaab").length < fuel →
        replaceAll fuel (str "aaab") (str "aa") (str "aaa") = some (join parts (str "aaa")) :=
  ⟨by decide, split_join_replaceAll (str "aaab") (str "aa") (str "aaa") (by decide)⟩

/-! The two overloads of `Split`. -/

theorem decide_ne_of_free (h : c ∉ s) : ∀ b ∈ s, decide (b ≠ c) = true := by
  intro b hb
  exact decide_eq_true (fun he => h (he ▸ hb))

theorem getline_of_free (hs : s ≠ []) (h : c ∉ s) :
    getline ⟨s, false⟩ c = some (s, ⟨[], true⟩) := by
  have hall := decide_ne_of_free h
  have hdrop : s.dropWhile (· ≠ c) = [] := List.dropWhile_eq_nil_iff.mpr hall
  have htake : s.takeWhile (· ≠ c) = s := List.takeWhile_eq_self_iff.mpr hall
  simp only [getline, hs, Bool.false_eq_true, or_self, if_false, hdrop, htake]

theorem getline_append (p r : Bytes) (h : c ∉ p) :
    getline ⟨p ++ c :: r, false⟩ c = some (p, ⟨r, false⟩) := by
  have hall := decide_ne_of_free h
  have hdrop : (p ++ c :: r).dropWhile (· ≠ c) = c :: r := by
    rw [List.dropWhile_append_of_pos hall, List.dropWhile_cons_of_neg (by simp)]
  have htake : (p ++ c :: r).takeWhile (· ≠ c) = p := by
    rw [List.takeWhile_append_of_pos hall, List.takeWhile_cons_of_neg (by simp), List.append_nil]
  simp only [getline, hdrop, htake]
  simp

/-- What `getline` does not deliver: an empty last part. -/
def droppedPart (s : Bytes) (c : UInt8) : List Bytes :=
  if s ≠ [] ∧ s.getLast? ≠ some c then [] else [[]]

theorem droppedPart_append (p r : Bytes) : droppedPart (p ++ c :: r) c = droppedPart r c := by
  cases r with
  | nil => simp [droppedPart]
  | cons b r => simp [droppedPart, List.getLast?_append, List.getLast?_cons_cons]

theorem splitCharLoop_end (ss : Stream) (result : List Bytes) (h : ss.eof = true ∨ ss.rest = []) :
    splitCharLoop c (n + 1) ss result = some result := by
  simp only [splitCharLoop, getline, h, if_true]

/-- The two loops find the same parts, up to the empty last one. -/
theorem splitCharLoop_eq (h : Pieces [c] s ps) (hn : ps.length < n) (result : List Bytes) :
    ∃ parts, splitCharLoop c n ⟨s, false⟩ result = some (result ++ parts) ∧
      ps = parts ++ droppedPart s c := by
  induction h generalizing n result with
  | @last s h =>
    have hfree : c ∉ s := fun hc => h ((List.singleton_infix_iff c _).mpr hc)
    obtain ⟨n, rfl⟩ : ∃ m, n = m + 2 := ⟨n - 2, by simp only [List.length_singleton] at hn; omega⟩
    by_cases hs : s = []
    · subst hs
      refine ⟨[], ?_, by simp [droppedPart]⟩
      rw [splitCharLoop_end _ _ (Or.inr rfl), List.append_nil]
    · have hlast : s.getLast? ≠ some c := fun he => hfree (List.mem_of_getLast? he)
      refine ⟨[s], ?_, by simp [droppedPart, hs, hlast]⟩
      rw [splitCharLoop, getline_of_free hs hfree]
      exact splitCharLoop_end _ _ (Or.inl rfl)
  | @cut p r ps h tail ih =>
    have hfree : c ∉ p := fun hc => h.free (by simp) ((List.singleton_infix_iff c _).mpr hc)
    cases n with
    | zero => simp at hn
    | succ n =>
      obtain ⟨parts, hloop, hps⟩ := ih (by simpa using hn) (result ++ [p])
      refine ⟨p :: parts, ?_, ?_⟩
      · rw [List.append_assoc, List.singleton_append, splitCharLoop, getline_append p r hfree]
        simpa using hloop
      · rw [List.append_assoc, List.singleton_append, droppedPart_append, hps]
        rfl

theorem droppedPart_eq_nil : droppedPart s c = [] ↔ s ≠ [] ∧ s.getLast? ≠ some c := by
  simp [droppedPart]

/-- The overload that reads the parts as lines agrees with the one that searches for the delimiter
exactly on the texts that are neither empty nor end with it. -/
theorem splitChar_eq_split_iff (s : Bytes) (c : UInt8) :
    ∃ chars texts, (∀ fuel, s.length + 1 < fuel → splitChar fuel s c = some chars) ∧
      (∀ fuel, s.length < fuel → split fuel s [c] = some texts) ∧
      (chars = texts ↔ s ≠ [] ∧ s.getLast? ≠ some c) := by
  have hd : [c] ≠ [] := List.cons_ne_nil c []
  obtain ⟨texts, htexts⟩ := exists_pieces hd s
  have hlen := htexts.length_le hd
  obtain ⟨chars, -, heq⟩ := splitCharLoop_eq htexts (Nat.lt_succ_self _) []
  refine ⟨chars, texts, ?_, ?_, ?_⟩
  · intro fuel hfuel
    obtain ⟨parts, hloop, hparts⟩ := splitCharLoop_eq htexts (n := fuel) (by omega) []
    have hsame : parts = chars := List.append_cancel_right (hparts.symm.trans heq)
    rw [splitChar, hloop, hsame, List.nil_append]
  · intro fuel hfuel
    exact split_eq hd htexts hfuel
  · rw [← droppedPart_eq_nil, heq]
    simp

/-- A trailing comma: two parts here, three there. -/
theorem splitChar_trailing :
    splitChar 9 (str "a,b,") 44 = some [str "a", str "b"] ∧
      split 9 (str "a,b,") [44] = some [str "a", str "b", []] ∧
      splitChar 9 (str "a,b,") 44 ≠ split 9 (str "a,b,") [44] := by decide +kernel

end SwiftChat.Utils
