import SwiftChat.Base.Checked
import SwiftChat.Base.Decimal
import SwiftChat.Base.Matching
import Mathlib.Data.List.Sort

/-! The files of the log: their names, and which of them the rotation removes. -/
namespace SwiftChat.Logger
open Base

/-- The local time in the name of a file, on a clock with years of four digits. -/
structure LocalTime where
  year : Nat
  month : Nat
  day : Nat
  hour : Nat
  minute : Nat
  second : Nat
  millis : Nat
  inYear : 1000 ≤ year ∧ year < 10000
  inMonth : 1 ≤ month ∧ month ≤ 12
  inDay : 1 ≤ day ∧ day ≤ 31
  inHour : hour < 24
  inMinute : minute < 60
  inSecond : second ≤ 60
  inMillis : millis < 1000
deriving DecidableEq

namespace LocalTime

/-- Times in their order. -/
def key (t : LocalTime) : List Nat :=
  [t.year, t.month, t.day, t.hour, t.minute, t.second, t.millis]

instance : LT LocalTime := ⟨fun t u => t.key < u.key⟩

/-- `%Y%m%d_%H%M%S_` and the milliseconds. -/
def stamp (t : LocalTime) : Bytes :=
  padDec 4 t.year ++ (padDec 2 t.month ++ (padDec 2 t.day ++ ([95] ++ (padDec 2 t.hour ++
    (padDec 2 t.minute ++ (padDec 2 t.second ++ ([95] ++ padDec 3 t.millis)))))))

/-- The time whose stamp this may be. -/
def ofStamp (s : Bytes) : Option LocalTime :=
  let year := decVal (s.take 4)
  let month := decVal ((s.drop 4).take 2)
  let day := decVal ((s.drop 6).take 2)
  let hour := decVal ((s.drop 9).take 2)
  let minute := decVal ((s.drop 11).take 2)
  let second := decVal ((s.drop 13).take 2)
  let millis := decVal ((s.drop 16).take 3)
  if h : (1000 ≤ year ∧ year < 10000) ∧ (1 ≤ month ∧ month ≤ 12) ∧ (1 ≤ day ∧ day ≤ 31) ∧
      hour < 24 ∧ minute < 60 ∧ second ≤ 60 ∧ millis < 1000 then
    some ⟨year, month, day, hour, minute, second, millis, h.1, h.2.1, h.2.2.1, h.2.2.2.1,
      h.2.2.2.2.1, h.2.2.2.2.2.1, h.2.2.2.2.2.2⟩
  else none

variable {t u : LocalTime}

@[simp] theorem length_stamp : t.stamp.length = 19 := by simp [stamp]

theorem padDec_append_lt_iff {w n m : Nat} {x y : Bytes} (hn : n < 10 ^ w) (hm : m < 10 ^ w) :
    padDec w n ++ x < padDec w m ++ y ↔ n < m ∨ n = m ∧ x < y := by
  rw [append_lt_append_iff (by simp), padDec_lt_iff hn hm, padDec_inj hn hm]

/-- Stamps are ordered as their times are. -/
theorem stamp_lt_iff : t.stamp < u.stamp ↔ t < u := by
  have hkey : t < u ↔ t.key < u.key := Iff.rfl
  have hmonth := t.inMonth
  have hmonth' := u.inMonth
  have hday := t.inDay
  have hday' := u.inDay
  have hsecond := t.inSecond
  have hsecond' := u.inSecond
  rw [hkey, stamp, stamp, padDec_append_lt_iff t.inYear.2 u.inYear.2,
    padDec_append_lt_iff (by omega) (by omega), padDec_append_lt_iff (by omega) (by omega),
    append_lt_append_left,
    padDec_append_lt_iff (t.inHour.trans (by decide)) (u.inHour.trans (by decide)),
    padDec_append_lt_iff (t.inMinute.trans (by decide)) (u.inMinute.trans (by decide)),
    padDec_append_lt_iff (by omega) (by omega), append_lt_append_left,
    padDec_lt_iff t.inMillis u.inMillis]
  simp [key, List.cons_lt_cons_iff]

theorem drop_padDec_append {w n k : Nat} {x : Bytes} (h : w ≤ k) :
    (padDec w n ++ x).drop k = x.drop (k - w) := by
  rw [List.drop_append, length_padDec, List.drop_eq_nil_of_le (by simpa using h), List.nil_append]

theorem decVal_take_padDec {w n : Nat} {x : Bytes} (h : n < 10 ^ w) :
    decVal ((padDec w n ++ x).take w) = n := by
  rw [List.take_left' length_padDec, decVal_padDec, Nat.mod_eq_of_lt h]

/-- The fields stand at fixed places. -/
theorem ofStamp_stamp (t : LocalTime) : ofStamp t.stamp = some t := by
  have hmonth := t.inMonth
  have hday := t.inDay
  have hsecond := t.inSecond
  have h1 : decVal (t.stamp.take 4) = t.year := decVal_take_padDec t.inYear.2
  have h2 : decVal ((t.stamp.drop 4).take 2) = t.month := by
    simp only [stamp, drop_padDec_append, le_refl, Nat.sub_self, List.drop_zero]
    exact decVal_take_padDec (by omega)
  have h3 : decVal ((t.stamp.drop 6).take 2) = t.day := by
    simp only [stamp, drop_padDec_append, Nat.reduceLeDiff, Nat.reduceSub, List.drop_zero]
    exact decVal_take_padDec (by omega)
  have h4 : decVal ((t.stamp.drop 9).take 2) = t.hour := by
    simp only [stamp, drop_padDec_append, Nat.reduceLeDiff, Nat.reduceSub, List.drop_zero,
      List.singleton_append, List.drop_succ_cons]
    exact decVal_take_padDec (t.inHour.trans (by decide))
  have h5 : decVal ((t.stamp.drop 11).take 2) = t.minute := by
    simp only [stamp, drop_padDec_append, Nat.reduceLeDiff, Nat.reduceSub, List.drop_zero,
      List.singleton_append, List.drop_succ_cons]
    exact decVal_take_padDec (t.inMinute.trans (by decide))
  have h6 : decVal ((t.stamp.drop 13).take 2) = t.second := by
    simp only [stamp, drop_padDec_append, Nat.reduceLeDiff, Nat.reduceSub, List.drop_zero,
      List.singleton_append, List.drop_succ_cons]
    exact decVal_take_padDec (by omega)
  have h7 : decVal ((t.stamp.drop 16).take 3) = t.millis := by
    simp only [stamp, drop_padDec_append, Nat.reduceLeDiff, Nat.reduceSub, List.drop_zero,
      List.singleton_append, List.drop_succ_cons]
    rw [List.take_of_length_le (by simp), decVal_padDec]
    exact Nat.mod_eq_of_lt t.inMillis
  simp only [ofStamp, h1, h2, h3, h4, h5, h6, h7]
  exact dif_pos ⟨t.inYear, t.inMonth, t.inDay, t.inHour, t.inMinute, t.inSecond, t.inMillis⟩

end LocalTime

/-- A file sink, with the fields that its file names and its rotation read. -/
structure FileSink where
  logDir : Bytes
  filePrefix : Bytes
  maxFileCount : Int
  fits : Fits 32 maxFileCount

/-- What `readdir` delivers: different names, of at most 255 bytes. -/
structure Listing where
  names : List Bytes
  nodup : names.Nodup
  short : ∀ name ∈ names, name.length ≤ 255

/-- `std::string::npos`. -/
def npos : Nat := 2 ^ 64 - 1

/-- The difference of two numbers of type `size_t`. -/
def sizeSub (n k : Nat) : Nat := (n + 2 ^ 64 - k) % 2 ^ 64

namespace FileSink

def path (sink : FileSink) (name : Bytes) : Bytes := sink.logDir ++ (str "/" ++ name)

def generateFileName (sink : FileSink) (now : LocalTime) : Bytes :=
  sink.path (sink.filePrefix ++ (str "_" ++ (now.stamp ++ str ".log")))

/-- The test that `CleanupOldFiles` puts to a name of the directory. -/
def matchesLog (sink : FileSink) (filename : Bytes) : Bool :=
  firstIn sink.filePrefix filename = some 0 &&
    (lastIn (str ".log") filename).getD npos = sizeSub filename.length 4

def logFiles (sink : FileSink) (listing : Listing) : List Bytes :=
  ((listing.names.filter sink.matchesLog).map sink.path).insertionSort (· ≤ ·)

/-- The loop of `CleanupOldFiles`: the files that it removes, or `none` where it takes the front of an
empty list. -/
def removeOldest (limit : Int) : List Bytes → Option (List Bytes)
  | [] => if limit < wrap 32 0 then none else some []
  | file :: rest =>
    if limit < wrap 32 (rest.length + 1) then (removeOldest limit rest).map (file :: ·)
    else some []

/-- `none` stands for undefined behaviour: an overflow, or the front of an empty list. -/
def cleanupOldFiles (sink : FileSink) (listing : Listing) : Option (List Bytes) :=
  (checked 32 (sink.maxFileCount - 1)).bind
    (fun limit => removeOldest limit (sink.logFiles listing))

/-- The name that `generateFileName` gives a file at this time. -/
def fileName (sink : FileSink) (t : LocalTime) : Bytes :=
  sink.filePrefix ++ (str "_" ++ (t.stamp ++ str ".log"))

/-- A name that this sink can have given a file. -/
def Own (sink : FileSink) (name : Bytes) : Prop := ∃ t, name = sink.fileName t

variable {sink : FileSink} {listing : Listing} {name : Bytes} {t u : LocalTime} {limit : Int}
  {files : List Bytes}

theorem own_iff : sink.Own name ↔
    ((LocalTime.ofStamp ((name.drop (sink.filePrefix.length + 1)).take 19)).any
      (fun t => name = sink.fileName t)) = true := by
  constructor
  · rintro ⟨t, rfl⟩
    have hstamp : ((sink.fileName t).drop (sink.filePrefix.length + 1)).take 19 = t.stamp := by
      rw [fileName, ← List.drop_drop, List.drop_left]
      exact List.take_left' LocalTime.length_stamp
    rw [hstamp, LocalTime.ofStamp_stamp]
    simp
  · intro h
    cases ht : LocalTime.ofStamp ((name.drop (sink.filePrefix.length + 1)).take 19) with
    | none => simp [ht] at h
    | some t =>
      rw [ht, Option.any_some] at h
      exact ⟨t, of_decide_eq_true h⟩

instance : DecidablePred sink.Own := fun _ => decidable_of_iff _ own_iff.symm

/-- The files of the directory that this sink can have created. -/
def ownFiles (sink : FileSink) (listing : Listing) : List Bytes :=
  listing.names.filter sink.Own

/-- Only files that the sink can have created are removed, and of these the newest
`max(max_file_count - 1, 0)` are left. -/
structure CleanedUp (sink : FileSink) (listing : Listing) (removed : List Bytes) : Prop where
  own : ∀ file ∈ removed, ∃ t, file = sink.generateFileName t
  count : ((sink.ownFiles listing).filter (fun name => sink.path name ∉ removed)).length =
    min (sink.maxFileCount - 1).toNat (sink.ownFiles listing).length
  newest : ∀ t u, sink.fileName t ∈ listing.names → sink.generateFileName t ∉ removed →
    sink.fileName u ∈ listing.names → sink.generateFileName u ∈ removed → u < t

/-- The clean-up comes to its end, and does what it is for. -/
def CleanupRight (sink : FileSink) (listing : Listing) : Prop :=
  ∃ removed, sink.cleanupOldFiles listing = some removed ∧ sink.CleanedUp listing removed

/-- How many more files there are than may stay, as the loop counts them. -/
def excess (limit : Int) (n : Nat) : Nat := (wrap 32 n - limit).toNat

theorem wrap_pred {n : Int} (h : Fits 32 (wrap 32 (n + 1) - 1)) :
    wrap 32 n = wrap 32 (n + 1) - 1 := by
  have hsub : wrap 32 (wrap 32 (n + 1) - 1) = wrap 32 (n + 1 - 1) := Int.bmod_sub_bmod
  rw [wrap_of_fits h, Int.add_sub_cancel] at hsub
  exact hsub.symm

theorem excess_succ {n : Nat} (hlimit : Fits 32 limit) (h : limit < wrap 32 (n + 1)) :
    excess limit (n + 1) = excess limit n + 1 := by
  have hfits : Fits 32 (wrap 32 (n + 1) - 1) := by
    have hhi : wrap 32 ((n : Int) + 1) < ((2 ^ 32 + 1) / 2 : Nat) := Int.bmod_lt (by decide)
    have hlo := hlimit.1
    constructor <;> omega
  have hpred := wrap_pred hfits
  have hcast : ((n + 1 : Nat) : Int) = n + 1 := rfl
  rw [excess, excess, hcast]
  omega

/-- The loop removes what is in excess, if there is as much. -/
theorem removeOldest_eq (hlimit : Fits 32 limit) (files : List Bytes) :
    removeOldest limit files = if excess limit files.length ≤ files.length then
      some (files.take (excess limit files.length)) else none := by
  induction files with
  | nil =>
    have hzero : wrap 32 0 = 0 := rfl
    have hexcess : excess limit 0 = (-limit).toNat := by
      rw [excess, show ((0 : Nat) : Int) = 0 from rfl, hzero, Int.zero_sub]
    rw [removeOldest, hzero, List.length_nil, hexcess]
    by_cases h : limit < 0
    · rw [if_pos h, if_neg (by omega)]
    · rw [if_neg h, if_pos (by omega), List.take_nil]
  | cons file rest ih =>
    rw [removeOldest, List.length_cons]
    by_cases h : limit < wrap 32 (rest.length + 1)
    · have hsucc := excess_succ hlimit h
      rw [if_pos h, ih, hsucc]
      by_cases hle : excess limit rest.length ≤ rest.length
      · rw [if_pos hle, if_pos (by omega), Option.map_some, List.take_succ_cons]
      · rw [if_neg hle, if_neg (by omega), Option.map_none]
    · have hzero : excess limit (rest.length + 1) = 0 := by
        rw [excess, show ((rest.length + 1 : Nat) : Int) = rest.length + 1 from rfl]
        omega
      rw [if_neg h, hzero, if_pos (Nat.zero_le _), List.take_zero]

/-- Which names pass: those that begin with the prefix and end with `.log`, and those of three bytes,
where the difference of the sizes is `npos`. -/
theorem matchesLog_iff (hlen : name.length ≤ 255) : sink.matchesLog name ↔
    sink.filePrefix <+: name ∧ (str ".log" <:+ name ∨ name.length = 3) := by
  have hdot : (str ".log").length = 4 := by decide +kernel
  rw [matchesLog, Bool.and_eq_true, decide_eq_true_eq, decide_eq_true_eq, firstIn_eq_zero]
  apply and_congr_right
  intro _
  cases h : lastIn (str ".log") name with
  | none =>
    have hnone : ¬ str ".log" <:+ name := by
      rintro ⟨p, rfl⟩
      rw [lastIn_of_suffix p (List.ne_nil_of_length_eq_add_one hdot)] at h
      cases h
    simp only [Option.getD_none, hnone, false_or, npos, sizeSub]
    omega
  | some i =>
    have hat := lastIn_eq_some h
    have hle := hat.length_le
    rw [List.length_drop, hdot] at hle
    have hlong : name.length ≠ 3 := by omega
    simp only [Option.getD_some, hlong, or_false, sizeSub]
    constructor
    · intro hi
      have hi : i = name.length - 4 := by omega
      have heq := hat.eq_of_length (by rw [List.length_drop, hdot]; omega)
      rw [heq]
      exact List.drop_suffix i name
    · rintro ⟨p, rfl⟩
      rw [lastIn_of_suffix p (List.ne_nil_of_length_eq_add_one hdot)] at h
      cases h
      rw [List.length_append, hdot] at hlen ⊢
      omega

theorem own_matchesLog (h : sink.Own name) (hlen : name.length ≤ 255) : sink.matchesLog name := by
  obtain ⟨t, rfl⟩ := h
  refine (matchesLog_iff hlen).mpr ⟨List.prefix_append _ _, Or.inl ?_⟩
  exact ⟨sink.filePrefix ++ (str "_" ++ t.stamp), by simp [fileName]⟩

theorem path_lt_iff {a b : Bytes} : sink.path a < sink.path b ↔ a < b := by
  rw [path, path, append_lt_append_left, append_lt_append_left]

theorem path_inj {a b : Bytes} : sink.path a = sink.path b ↔ a = b := by
  simp [path]

theorem fileName_lt_iff : sink.fileName t < sink.fileName u ↔ t < u := by
  rw [fileName, fileName, append_lt_append_left, append_lt_append_left,
    append_lt_append_iff (by simp), LocalTime.stamp_lt_iff]
  simp

/-- The names that pass the test, in the order of the files. -/
def matched (sink : FileSink) (listing : Listing) : List Bytes :=
  (listing.names.filter sink.matchesLog).insertionSort (· ≤ ·)

theorem logFiles_eq : sink.logFiles listing = (sink.matched listing).map sink.path := by
  refine (List.map_insertionSort _ _ _ _ ?_).symm
  intro a _ b _
  rw [← not_lt, ← not_lt, path_lt_iff]

theorem length_logFiles : (sink.logFiles listing).length = (sink.matched listing).length := by
  rw [logFiles_eq, List.length_map]

theorem mem_matched : name ∈ sink.matched listing ↔ name ∈ listing.names ∧ sink.matchesLog name := by
  rw [matched, List.mem_insertionSort, List.mem_filter]

theorem matched_nodup : (sink.matched listing).Nodup :=
  (List.perm_insertionSort _ _).nodup_iff.mpr (listing.nodup.filter _)

/-- Each file stands before those with the larger names. -/
theorem matched_sorted : (sink.matched listing).Pairwise (· < ·) := by
  have hle : (sink.matched listing).Pairwise (· ≤ ·) := List.pairwise_insertionSort _ _
  exact (hle.and matched_nodup).imp (fun h => lt_of_le_of_ne h.1 h.2)

theorem mem_ownFiles : name ∈ sink.ownFiles listing ↔ name ∈ listing.names ∧ sink.Own name := by
  simp [ownFiles]

theorem ownFiles_subset : sink.ownFiles listing ⊆ sink.matched listing := by
  intro name h
  obtain ⟨hmem, hown⟩ := mem_ownFiles.mp h
  exact mem_matched.mpr ⟨hmem, own_matchesLog hown (listing.short name hmem)⟩

theorem ownFiles_nodup : (sink.ownFiles listing).Nodup := listing.nodup.filter _

/-- When only own files are removed, the other own files are left. -/
theorem length_left {k : Nat} (hk : k ≤ (sink.matched listing).length)
    (hown : ∀ name ∈ (sink.matched listing).take k, sink.Own name) :
    ((sink.ownFiles listing).filter (fun name => name ∉ (sink.matched listing).take k)).length =
      (sink.ownFiles listing).length - k := by
  have hperm : ((sink.ownFiles listing).filter (fun name => name ∈ (sink.matched listing).take k)).Perm
      ((sink.matched listing).take k) := by
    apply (List.perm_ext_iff_of_nodup (ownFiles_nodup.filter _)
      (matched_nodup.sublist (List.take_sublist _ _))).mpr
    intro name
    rw [List.mem_filter, mem_ownFiles]
    constructor
    · exact fun h => of_decide_eq_true h.2
    · intro h
      have hmem := (mem_matched.mp (List.mem_of_mem_take h)).1
      exact ⟨⟨hmem, hown name h⟩, decide_eq_true h⟩
  have hlen := hperm.length_eq
  rw [List.length_take, Nat.min_eq_left hk] at hlen
  have hsum := List.length_eq_length_filter_add
    (l := sink.ownFiles listing) (fun name => decide (name ∈ (sink.matched listing).take k))
  have hnot : ((sink.ownFiles listing).filter
      (fun name => !decide (name ∈ (sink.matched listing).take k))).length =
      ((sink.ownFiles listing).filter (fun name => name ∉ (sink.matched listing).take k)).length := by
    congr 2
    funext name
    simp
  omega

/-- What it takes for the first `k` files to be the right ones to remove. -/
theorem cleanedUp_take_iff {k : Nat} (hk : k ≤ (sink.matched listing).length) :
    sink.CleanedUp listing ((sink.logFiles listing).take k) ↔
      (∀ name ∈ (sink.matched listing).take k, sink.Own name) ∧
      (sink.ownFiles listing).length - k =
        min (sink.maxFileCount - 1).toNat (sink.ownFiles listing).length := by
  have htake : (sink.logFiles listing).take k = ((sink.matched listing).take k).map sink.path := by
    rw [logFiles_eq, List.map_take]
  have hmem : ∀ name, sink.path name ∈ (sink.logFiles listing).take k ↔
      name ∈ (sink.matched listing).take k := by
    intro name
    rw [htake]
    exact List.mem_map_of_injective (fun _ _ => path_inj.mp)
  have hleft : (sink.ownFiles listing).filter
      (fun name => sink.path name ∉ (sink.logFiles listing).take k) =
      (sink.ownFiles listing).filter (fun name => name ∉ (sink.matched listing).take k) := by
    simp only [hmem]
  constructor
  · intro h
    have hown : ∀ name ∈ (sink.matched listing).take k, sink.Own name := by
      intro name hname
      obtain ⟨t, ht⟩ := h.own (sink.path name) ((hmem name).mpr hname)
      exact ⟨t, path_inj.mp ht⟩
    have hcount := h.count
    rw [hleft, length_left hk hown] at hcount
    exact ⟨hown, hcount⟩
  · rintro ⟨hown, hcount⟩
    refine ⟨?_, ?_, ?_⟩
    · intro file hfile
      rw [htake] at hfile
      obtain ⟨name, hname, rfl⟩ := List.mem_map.mp hfile
      obtain ⟨t, rfl⟩ := hown name hname
      exact ⟨t, rfl⟩
    · rw [hleft, length_left hk hown]
      exact hcount
    · intro t u ht hkept _ hgone
      have hold : sink.fileName u ∈ (sink.matched listing).take k := (hmem _).mp hgone
      have hnew : sink.fileName t ∈ (sink.matched listing).drop k := by
        have hin : sink.fileName t ∈ sink.matched listing :=
          ownFiles_subset (mem_ownFiles.mpr ⟨ht, t, rfl⟩)
        rw [← List.take_append_drop k (sink.matched listing)] at hin
        exact (List.mem_append.mp hin).resolve_left (fun h => hkept ((hmem _).mpr h))
      have hsorted : ((sink.matched listing).take k ++ (sink.matched listing).drop k).Pairwise
          (· < ·) := by
        rw [List.take_append_drop]
        exact matched_sorted
      exact fileName_lt_iff.mp ((List.pairwise_append.mp hsorted).2.2 _ hold _ hnew)

theorem length_ownFiles_le : (sink.ownFiles listing).length ≤ (sink.matched listing).length :=
  (List.subperm_of_subset ownFiles_nodup ownFiles_subset).length_le

theorem length_ownFiles_eq_iff : (sink.ownFiles listing).length = (sink.matched listing).length ↔
    ∀ name ∈ sink.matched listing, sink.Own name := by
  have hsub : (sink.ownFiles listing).Subperm (sink.matched listing) :=
    List.subperm_of_subset ownFiles_nodup ownFiles_subset
  constructor
  · intro h name hname
    have hperm := hsub.perm_of_length_le (le_of_eq h.symm)
    exact (mem_ownFiles.mp (hperm.mem_iff.mpr hname)).2
  · intro h
    have hback : sink.matched listing ⊆ sink.ownFiles listing :=
      fun name hname => mem_ownFiles.mpr ⟨(mem_matched.mp hname).1, h name hname⟩
    exact le_antisymm hsub.length_le (List.subperm_of_subset matched_nodup hback).length_le

/-- The bound can be computed, and what the loop counts as excess is there, is the sink's own, and
is what the own files are too many. -/
def ExcessOwn (sink : FileSink) (listing : Listing) : Prop :=
  let k := excess (sink.maxFileCount - 1) (sink.matched listing).length
  Fits 32 (sink.maxFileCount - 1) ∧ k ≤ (sink.matched listing).length ∧
    (∀ name ∈ (sink.matched listing).take k, sink.Own name) ∧
    (sink.ownFiles listing).length - k =
      min (sink.maxFileCount - 1).toNat (sink.ownFiles listing).length

theorem cleanupRight_iff : sink.CleanupRight listing ↔ sink.ExcessOwn listing := by
  by_cases hfits : Fits 32 (sink.maxFileCount - 1)
  · have hrun : sink.cleanupOldFiles listing =
        if excess (sink.maxFileCount - 1) (sink.matched listing).length ≤
            (sink.matched listing).length then
          some ((sink.logFiles listing).take
            (excess (sink.maxFileCount - 1) (sink.matched listing).length))
        else none := by
      rw [cleanupOldFiles, checked_of_fits hfits, Option.bind_some, removeOldest_eq hfits,
        length_logFiles]
    unfold CleanupRight
    rw [hrun]
    by_cases hk : excess (sink.maxFileCount - 1) (sink.matched listing).length ≤
        (sink.matched listing).length
    · rw [if_pos hk]
      constructor
      · rintro ⟨removed, hremoved, h⟩
        obtain rfl := Option.some.inj hremoved
        exact ⟨hfits, hk, (cleanedUp_take_iff hk).mp h⟩
      · rintro ⟨-, -, h⟩
        exact ⟨_, rfl, (cleanedUp_take_iff hk).mpr h⟩
    · rw [if_neg hk]
      constructor
      · rintro ⟨removed, hremoved, _⟩
        cases hremoved
      · rintro ⟨-, hle, _⟩
        exact absurd hle hk
  · constructor
    · rintro ⟨removed, hremoved, _⟩
      rw [cleanupOldFiles, checked_of_not_fits hfits, Option.bind_none] at hremoved
      cases hremoved
    · rintro ⟨h, _⟩
      exact absurd h hfits

/-- As long as the cast counts the files. -/
theorem excessOwn_iff (hfew : (sink.matched listing).length < 2 ^ 31) :
    sink.ExcessOwn listing ↔ 1 ≤ sink.maxFileCount ∧
      ((sink.matched listing).length < sink.maxFileCount ∨
        ∀ name ∈ sink.matched listing, sink.Own name) := by
  have hmax := sink.fits
  have hle : (sink.ownFiles listing).length ≤ (sink.matched listing).length := length_ownFiles_le
  have hwrap : wrap 32 ((sink.matched listing).length : Int) = (sink.matched listing).length :=
    wrap_of_fits ⟨by omega, by omega⟩
  have hexcess : excess (sink.maxFileCount - 1) (sink.matched listing).length =
      ((sink.matched listing).length - (sink.maxFileCount - 1)).toNat := by rw [excess, hwrap]
  rw [ExcessOwn, hexcess, ← length_ownFiles_eq_iff]
  obtain ⟨hlo, hhi⟩ := hmax
  constructor
  · rintro ⟨-, hk, hown, hcount⟩
    refine ⟨by omega, ?_⟩
    by_cases hlt : (sink.matched listing).length < sink.maxFileCount
    · exact Or.inl hlt
    · have hin := List.subperm_of_subset (matched_nodup.sublist (List.take_sublist _ _))
        (fun name hname => mem_ownFiles.mpr
          ⟨(mem_matched.mp (List.mem_of_mem_take hname)).1, hown name hname⟩)
      have hroom := hin.length_le
      rw [List.length_take, Nat.min_eq_left hk] at hroom
      exact Or.inr (by omega)
  · rintro ⟨hpos, hgood⟩
    refine ⟨⟨by omega, by omega⟩, by omega, ?_, ?_⟩
    · intro name hname
      rcases hgood with hlt | heq
      · have hzero : ((sink.matched listing).length - (sink.maxFileCount - 1)).toNat = 0 := by omega
        rw [hzero, List.take_zero] at hname
        cases hname
      · exact length_ownFiles_eq_iff.mp heq name (List.mem_of_mem_take hname)
    · rcases hgood with hlt | heq
      · omega
      · omega

/-- The clean-up is right exactly when what it counts as excess is the sink's own; where fewer than
2³¹ names pass its test, when files may stay at all, and no name that passes is foreign or none is
too many. -/
theorem cleanupOldFiles_right_iff (sink : FileSink) (listing : Listing) :
    (sink.CleanupRight listing ↔ sink.ExcessOwn listing) ∧
      ((sink.matched listing).length < 2 ^ 31 →
        (sink.CleanupRight listing ↔ 1 ≤ sink.maxFileCount ∧
          ((sink.matched listing).length < sink.maxFileCount ∨
            ∀ name ∈ sink.matched listing, sink.Own name))) :=
  ⟨cleanupRight_iff, fun hfew => cleanupRight_iff.trans (excessOwn_iff hfew)⟩

/-- No file may stay, and there is none. -/
theorem cleanupOldFiles_empty : ¬ ∀ (sink : FileSink) (listing : Listing),
    sink.CleanupRight listing := by
  intro h
  let sink : FileSink :=
    { logDir := str "logs", filePrefix := str "app", maxFileCount := 0, fits := by decide }
  obtain ⟨removed, hremoved, -⟩ := h sink ⟨[], List.nodup_nil, by rintro _ ⟨⟩⟩
  have hnone : sink.cleanupOldFiles ⟨[], List.nodup_nil, by rintro _ ⟨⟩⟩ = none := by decide +kernel
  rw [hnone] at hremoved
  cases hremoved

end FileSink
end SwiftChat.Logger
