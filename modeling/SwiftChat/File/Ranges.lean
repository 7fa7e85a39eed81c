import SwiftChat.Base.Checked
import SwiftChat.File.StoredFiles

/-! Reading a part of a stored file, with the 64-bit arithmetic that clamps it. -/
namespace SwiftChat.File
open Base
variable {st : FileState} {f : Bytes} {data : FileMetaData} {content : Bytes}
  {offset length rangeStart rangeEnd : Int}

/-- What a read hands out: the bytes and what the record says. -/
structure FileRead where
  data : Bytes
  contentType : Bytes
  fileName : Bytes
  fileSize : Int
deriving DecidableEq

/-- `f.seekg(offset)` and `f.read` of `count` bytes, which fails when there are fewer. -/
def readAt (content : Bytes) (offset count : Int) : Option Bytes :=
  let bytes := (content.drop offset.toNat).take count.toNat
  if (bytes.length : Int) = count then some bytes else none

namespace FileService

/-- `ReadFileRange`: no result when the arithmetic on `int64_t` overflows, `some none` when the call
fails. -/
def readFileRange (st : FileState) (fileId : Bytes) (offset length : Int) :
    Option (Option FileRead) :=
  match FileStore.getById st.db fileId with
  | none => some none
  | some info =>
    let read (bytes : Bytes) : FileRead := ⟨bytes, info.contentType, info.fileName, info.fileSize⟩
    let offset := if offset < 0 then 0 else offset
    if offset ≥ info.fileSize then some (some (read []))
    else do
      let readLen ← (if length < 0 then checked 64 (info.fileSize - offset) else some length)
      let stop ← checked 64 (offset + readLen)
      let readLen ← (if stop > info.fileSize then checked 64 (info.fileSize - offset)
        else some readLen)
      match st.disk.get info.storagePath with
      | none => return none
      | some content => return (readAt content offset readLen).map read

end FileService

/-- `HttpDownloadHandler::Serve`, with the flag for a partial answer. -/
def serve (st : FileState) (fileId : Bytes) (rangeStart rangeEnd : Int) :
    Option (Option (FileRead × Bool)) :=
  if rangeStart ≥ 0 ∧ rangeEnd ≥ 0 ∧ rangeEnd ≥ rangeStart then do
    let distance ← checked 64 (rangeEnd - rangeStart)
    let length ← checked 64 (distance + 1)
    let r ← FileService.readFileRange st fileId rangeStart length
    return r.map fun read => (read, true)
  else
    match FileService.readFile st fileId with
    | none => some none
    | some (content, contentType, fileName) =>
      some (some (⟨content, contentType, fileName, content.length⟩, false))

/-- The bytes from an offset on, at most `length` of them, or all when `length` is negative. -/
def rangeOf (content : Bytes) (offset length : Int) : Bytes :=
  let rest := content.drop (max offset 0).toNat
  if length < 0 then rest else rest.take length.toNat

/-- The bytes from `rangeStart` to `rangeEnd` or the last one, or all when that is no range. -/
def servedBytes (content : Bytes) (rangeStart rangeEnd : Int) : Bytes :=
  if 0 ≤ rangeStart ∧ rangeStart ≤ rangeEnd then
    (content.drop rangeStart.toNat).take (min rangeEnd (content.length - 1) + 1 - rangeStart).toNat
  else content

/-- The read hands out the bytes it is asked for, and the record of the file. -/
def RangeRight (st : FileState) (f : Bytes) (data : FileMetaData) (content : Bytes)
    (offset length : Int) : Prop :=
  FileService.readFileRange st f offset length =
    some (some ⟨rangeOf content offset length, data.contentType, data.fileName, data.fileSize⟩)

/-- The download hands out the part of what `ReadFile` returns that it is asked for. -/
def ServeRight (st : FileState) (f : Bytes) (rangeStart rangeEnd : Int) : Prop :=
  ∃ content contentType fileName read isPartial,
    FileService.readFile st f = some (content, contentType, fileName) ∧
    serve st f rangeStart rangeEnd = some (some (read, isPartial)) ∧
    read.data = servedBytes content rangeStart rangeEnd ∧
    read.contentType = contentType ∧ read.fileName = fileName

/-- The offset is past the end, there is no limit, or the sum of the two is a 64-bit value. -/
def RangeFits (size offset length : Int) : Prop :=
  size ≤ max offset 0 ∨ length < 0 ∨ max offset 0 + length < 2 ^ 63

/-- The request is no range, does not end at the last 64-bit value, or starts past the end (and
not at zero). -/
def ServeFits (size rangeStart rangeEnd : Int) : Prop :=
  ¬ (0 ≤ rangeStart ∧ rangeStart ≤ rangeEnd) ∨ rangeEnd < 2 ^ 63 - 1 ∨
    (0 < rangeStart ∧ size ≤ rangeStart)

theorem readAt_eq {first count : Nat} (h : first + count ≤ content.length) :
    readAt content first count = some ((content.drop first).take count) := by
  have hlen : ((content.drop first).take count).length = count := by
    rw [List.length_take, List.length_drop]
    omega
  simp only [readAt, Int.toNat_natCast, hlen, if_true]

/-- Reading all that is left behind an offset. -/
theorem readAt_rest {first : Nat} (h : first ≤ content.length) :
    readAt content first (content.length - first : Int) = some (content.drop first) := by
  have hcount : (content.length - first : Int) = ((content.length - first : Nat) : Int) := by omega
  rw [hcount, readAt_eq (by omega), List.take_of_length_le (by simp)]

section Stored
variable (h : StoredAs st f data content) (hsize : (content.length : Int) = data.fileSize)
include h hsize

/-- From an offset past the end nothing is read. -/
theorem readFileRange_behind (hpast : data.fileSize ≤ max offset 0) :
    FileService.readFileRange st f offset length =
      some (some ⟨[], data.contentType, data.fileName, data.fileSize⟩) := by
  have hclamp : (if offset < 0 then 0 else offset) = max offset 0 := by
    split <;> omega
  simp only [FileService.readFileRange, h.1, hclamp, ge_iff_le, hpast, if_true]

/-- The arithmetic of a read from an offset within the file. -/
theorem readFileRange_inside {first : Nat} (hfirst : (first : Int) = max offset 0)
    (hin : first < content.length) :
    FileService.readFileRange st f offset length =
      (if length < 0 then checked 64 (content.length - first : Int) else some length).bind
        fun readLen => (checked 64 (first + readLen)).bind fun stop =>
          (if stop > content.length then checked 64 (content.length - first : Int)
            else some readLen).bind fun readLen =>
              some ((readAt content first readLen).map
                fun bytes => ⟨bytes, data.contentType, data.fileName, data.fileSize⟩) := by
  have hclamp : (if offset < 0 then 0 else offset) = first := by
    split <;> omega
  have hinside : ¬ (content.length : Int) ≤ (first : Int) := by omega
  simp only [FileService.readFileRange, h.1, h.2, hclamp, ge_iff_le, hinside, if_false, ← hsize,
    Option.bind_eq_bind, Option.pure_def]

theorem readFileRange_rest (hfits : Fits 64 data.fileSize) {first : Nat}
    (hfirst : (first : Int) = max offset 0) (hin : first < content.length) (hneg : length < 0) :
    FileService.readFileRange st f offset length =
      some (some ⟨content.drop first, data.contentType, data.fileName, data.fileSize⟩) := by
  have hend := (fits_iff_of_nonneg (by omega)).mp hfits
  have hrest : Fits 64 (content.length - first : Int) :=
    (fits_iff_of_nonneg (by omega)).mpr (by omega)
  have hstop : (first + (content.length - first) : Int) = content.length := by omega
  rw [readFileRange_inside h hsize hfirst hin, if_pos hneg, checked_of_fits hrest,
    Option.bind_some, hstop, checked_of_fits (hsize ▸ hfits), Option.bind_some,
    if_neg (by omega), Option.bind_some, readAt_rest (by omega)]
  rfl

theorem readFileRange_count (hfits : Fits 64 data.fileSize) {first : Nat}
    (hfirst : (first : Int) = max offset 0) (hin : first < content.length) (hpos : 0 ≤ length) :
    FileService.readFileRange st f offset length =
      if 2 ^ 63 ≤ first + length then none
      else some (some ⟨(content.drop first).take length.toNat, data.contentType, data.fileName,
        data.fileSize⟩) := by
  have hend := (fits_iff_of_nonneg (by omega)).mp hfits
  rw [readFileRange_inside h hsize hfirst hin, if_neg (by omega), Option.bind_some]
  by_cases hbig : 2 ^ 63 ≤ first + length
  · rw [checked_of_not_fits ((fits_iff_of_nonneg (by omega)).not.mpr (by omega)), if_pos hbig]
    rfl
  · rw [checked_of_fits ((fits_iff_of_nonneg (by omega)).mpr (by omega)), if_neg hbig,
      Option.bind_some]
    by_cases hover : first + length > content.length
    · have hrest : Fits 64 (content.length - first : Int) :=
        (fits_iff_of_nonneg (by omega)).mpr (by omega)
      have hall : (content.drop first).take length.toNat = content.drop first := by
        apply List.take_of_length_le
        rw [List.length_drop]
        omega
      rw [if_pos hover, checked_of_fits hrest, Option.bind_some, readAt_rest (by omega), hall]
      rfl
    · obtain ⟨count, rfl⟩ := Int.eq_ofNat_of_zero_le hpos
      rw [if_neg hover, Option.bind_some, readAt_eq (by omega), Int.toNat_natCast]
      rfl

/-- A read of a part is right exactly when its offset and its length add up to a 64-bit value, as
far as they are added at all. -/
theorem rangeRight_iff (hfits : Fits 64 data.fileSize) :
    RangeRight st f data content offset length ↔ RangeFits data.fileSize offset length := by
  rw [RangeRight, RangeFits]
  by_cases hpast : data.fileSize ≤ max offset 0
  · have hnone : rangeOf content offset length = [] := by
      have hdrop : content.drop (max offset 0).toNat = [] := List.drop_eq_nil_of_le (by omega)
      simp [rangeOf, hdrop]
    rw [readFileRange_behind h hsize hpast, hnone]
    exact iff_of_true rfl (Or.inl hpast)
  · obtain ⟨first, hfirst⟩ := Int.eq_ofNat_of_zero_le (by omega : 0 ≤ max offset 0)
    have hin : first < content.length := by omega
    rcases Int.lt_or_le length 0 with hneg | hpos
    · rw [readFileRange_rest h hsize hfits hfirst.symm hin hneg, rangeOf, if_pos hneg, hfirst]
      exact iff_of_true rfl (Or.inr (Or.inl hneg))
    · rw [readFileRange_count h hsize hfits hfirst.symm hin hpos, rangeOf,
        if_neg (by omega : ¬ length < 0), hfirst]
      by_cases hbig : 2 ^ 63 ≤ first + length
      · rw [if_pos hbig]
        refine iff_of_false (by simp) ?_
        rintro (hle | hneg | hlt)
        · omega
        · omega
        · omega
      · rw [if_neg hbig]
        exact iff_of_true rfl (Or.inr (Or.inr (by omega)))

omit hsize in
theorem readFile_stored :
    FileService.readFile st f = some (content, data.contentType, data.fileName) := by
  simp [FileService.readFile, h.1, h.2]

omit hsize in
/-- The answer to a request is right when its bytes are; what is said of the file always is. -/
theorem serveRight_of_bytes {read : FileRead} {isPartial : Bool}
    (hserve : serve st f rangeStart rangeEnd = some (some (read, isPartial)))
    (hbytes : read.data = servedBytes content rangeStart rangeEnd)
    (htype : read.contentType = data.contentType) (hname : read.fileName = data.fileName) :
    ServeRight st f rangeStart rangeEnd :=
  ⟨content, _, _, read, isPartial, readFile_stored h, hserve, hbytes, htype, hname⟩

omit hsize in
theorem serve_whole (hrange : ¬ (0 ≤ rangeStart ∧ rangeStart ≤ rangeEnd)) :
    serve st f rangeStart rangeEnd =
      some (some (⟨content, data.contentType, data.fileName, content.length⟩, false)) := by
  have hguard : ¬ (rangeStart ≥ 0 ∧ rangeEnd ≥ 0 ∧ rangeEnd ≥ rangeStart) := by
    rintro ⟨hs, -, hle⟩
    exact hrange ⟨hs, hle⟩
  rw [serve, if_neg hguard, readFile_stored h]

omit h hsize in
/-- A request of a range reads its length, which may not be a 64-bit value. -/
theorem serve_range (hrange : 0 ≤ rangeStart ∧ rangeStart ≤ rangeEnd) (hend : Fits 64 rangeEnd) :
    serve st f rangeStart rangeEnd =
      if 2 ^ 63 ≤ rangeEnd - rangeStart + 1 then none
      else (FileService.readFileRange st f rangeStart (rangeEnd - rangeStart + 1)).bind
        fun r => some (r.map fun read => (read, true)) := by
  obtain ⟨hs, hle⟩ := hrange
  have hlt := (fits_iff_of_nonneg (by omega)).mp hend
  have hdistance : Fits 64 (rangeEnd - rangeStart) := (fits_iff_of_nonneg (by omega)).mpr (by omega)
  have hguard : rangeStart ≥ 0 ∧ rangeEnd ≥ 0 ∧ rangeEnd ≥ rangeStart := ⟨hs, by omega, hle⟩
  simp only [serve, if_pos hguard, checked_of_fits hdistance, Option.bind_eq_bind,
    Option.bind_some, Option.pure_def]
  by_cases hbig : 2 ^ 63 ≤ rangeEnd - rangeStart + 1
  · rw [checked_of_not_fits ((fits_iff_of_nonneg (by omega)).not.mpr (by omega)), if_pos hbig]
    rfl
  · rw [checked_of_fits ((fits_iff_of_nonneg (by omega)).mpr (by omega)), if_neg hbig,
      Option.bind_some]

omit h hsize in
theorem not_serveRight (hnone : serve st f rangeStart rangeEnd = none) :
    ¬ ServeRight st f rangeStart rangeEnd := by
  rintro ⟨_, _, _, read, isPartial, _, hserve, _⟩
  rw [hnone] at hserve
  cases hserve

/-- Nothing is left behind a start that is past the end. -/
theorem serveRight_behind (hrange : 0 ≤ rangeStart ∧ rangeStart ≤ rangeEnd)
    (hend : Fits 64 rangeEnd) (hpast : data.fileSize ≤ rangeStart)
    (hlength : rangeEnd - rangeStart + 1 < 2 ^ 63) :
    ServeRight st f rangeStart rangeEnd := by
  have hserve : serve st f rangeStart rangeEnd =
      some (some (⟨[], data.contentType, data.fileName, data.fileSize⟩, true)) := by
    rw [serve_range hrange hend, if_neg (by omega),
      readFileRange_behind h hsize (by omega : data.fileSize ≤ max rangeStart 0)]
    rfl
  refine serveRight_of_bytes h hserve ?_ rfl rfl
  have hnone : (min rangeEnd (content.length - 1) + 1 - rangeStart).toNat = 0 := by omega
  simp only [servedBytes, if_pos hrange, hnone, List.take_zero]

/-- A range that starts within the file is served just when its end is not the last value. -/
theorem serveRight_inside (hfits : Fits 64 data.fileSize)
    (hrange : 0 ≤ rangeStart ∧ rangeStart ≤ rangeEnd) (hend : Fits 64 rangeEnd)
    (hin : rangeStart < data.fileSize) (hlength : rangeEnd - rangeStart + 1 < 2 ^ 63) :
    ServeRight st f rangeStart rangeEnd ↔ rangeEnd < 2 ^ 63 - 1 := by
  obtain ⟨first, rfl⟩ := Int.eq_ofNat_of_zero_le hrange.1
  have hcount := readFileRange_count h hsize hfits
    (by omega : (first : Int) = max (first : Int) 0) (by omega)
    (by omega : 0 ≤ rangeEnd - first + 1)
  by_cases hlast : 2 ^ 63 ≤ (first : Int) + (rangeEnd - first + 1)
  · rw [if_pos hlast] at hcount
    refine iff_of_false (not_serveRight ?_) (by omega)
    rw [serve_range hrange hend, if_neg (by omega), hcount]
    rfl
  · rw [if_neg hlast] at hcount
    have hserve : serve st f first rangeEnd =
        some (some (⟨(content.drop first).take (rangeEnd - first + 1).toNat, data.contentType,
          data.fileName, data.fileSize⟩, true)) := by
      rw [serve_range hrange hend, if_neg (by omega), hcount]
      rfl
    refine iff_of_true (serveRight_of_bytes h hserve ?_ rfl rfl) (by omega)
    rw [servedBytes, if_pos hrange, Int.toNat_natCast]
    -- the two counts agree up to where the content ends
    rcases Int.le_total rangeEnd (content.length - 1) with hle | hle
    · rw [min_eq_left hle, show rangeEnd + 1 - (first : Int) = rangeEnd - first + 1 by omega]
    · rw [min_eq_right hle, List.take_of_length_le (by rw [List.length_drop]; omega),
        List.take_of_length_le (by rw [List.length_drop]; omega)]

/-- A download is right exactly when the end of its range is not the last 64-bit value, unless it
starts past the end of the file. -/
theorem serveRight_iff (hfits : Fits 64 data.fileSize) (hend : Fits 64 rangeEnd) :
    ServeRight st f rangeStart rangeEnd ↔ ServeFits data.fileSize rangeStart rangeEnd := by
  rw [ServeFits]
  by_cases hrange : 0 ≤ rangeStart ∧ rangeStart ≤ rangeEnd
  · have hlt := (fits_iff_of_nonneg (by omega)).mp hend
    rcases Int.lt_or_le (rangeEnd - rangeStart + 1) (2 ^ 63) with hlength | hbig
    · rcases Int.lt_or_le rangeStart data.fileSize with hin | hpast
      · rw [serveRight_inside h hsize hfits hrange hend hin hlength]
        constructor
        · exact fun hless => Or.inr (Or.inl hless)
        · rintro (hno | hless | ⟨-, hle⟩)
          · exact absurd hrange hno
          · exact hless
          · omega
      · refine iff_of_true (serveRight_behind h hsize hrange hend hpast hlength) ?_
        rcases Int.lt_or_le 0 rangeStart with hpos | hzero
        · exact Or.inr (Or.inr ⟨hpos, hpast⟩)
        · exact Or.inr (Or.inl (by omega))
    · refine iff_of_false (not_serveRight (by rw [serve_range hrange hend, if_pos hbig])) ?_
      rintro (hno | hless | ⟨hpos, -⟩)
      · exact hno hrange
      · omega
      · omega
  · refine iff_of_true (serveRight_of_bytes h (serve_whole h hrange) ?_ rfl rfl) (Or.inl hrange)
    simp only [servedBytes, if_neg hrange]

end Stored

/-- Both ways to read a part of a stored file give exactly the bytes asked for where the sums they
clamp with are 64-bit values, and overflow on all other requests. -/
theorem ranges_right_iff (st : FileState) (f : Bytes) (data : FileMetaData) (content : Bytes)
    (h : StoredAs st f data content) (hsize : (content.length : Int) = data.fileSize)
    (hfits : Fits 64 data.fileSize) :
    (∀ offset length, Fits 64 offset → Fits 64 length →
      (RangeRight st f data content offset length ↔ RangeFits data.fileSize offset length)) ∧
    ∀ rangeStart rangeEnd, Fits 64 rangeStart → Fits 64 rangeEnd →
      (ServeRight st f rangeStart rangeEnd ↔ ServeFits data.fileSize rangeStart rangeEnd) := by
  constructor
  · intro offset length _ _
    exact rangeRight_iff h hsize hfits
  · intro rangeStart rangeEnd _ hend
    exact serveRight_iff h hsize hfits hend

/-- One file of three bytes, as an upload stores it. -/
def oneFile : FileState :=
  (FileService.upload {} {} (str "u") (str "n") (str "t") (str "abc") (seedOf 122) 5).1

def oneFileData : FileMetaData :=
  (FileStore.getById oneFile.db (generateFileId (seedOf 122))).getD {}

theorem ranges_right_oneFile :
    StoredAs oneFile (generateFileId (seedOf 122)) oneFileData (str "abc") ∧
    RangeRight oneFile (generateFileId (seedOf 122)) oneFileData (str "abc") 1 (-1) ∧
    ServeRight oneFile (generateFileId (seedOf 122)) 1 (2 ^ 63 - 2) := by
  have hstored : StoredAs oneFile (generateFileId (seedOf 122)) oneFileData (str "abc") :=
    ⟨by decide +kernel, by decide +kernel⟩
  have hlaw := ranges_right_iff oneFile (generateFileId (seedOf 122)) oneFileData (str "abc")
    hstored (by decide +kernel) (by decide +kernel)
  refine ⟨hstored, ?_, ?_⟩
  · exact (hlaw.1 1 (-1) (by decide) (by decide)).mpr (Or.inr (Or.inl (by decide)))
  · exact (hlaw.2 1 (2 ^ 63 - 2) (by decide) (by decide)).mpr (Or.inr (Or.inl (by decide)))

/-- The second byte and all that may follow, and everything up to the last 64-bit value. -/
theorem ranges_overflow :
    FileService.readFileRange oneFile (generateFileId (seedOf 122)) 1 (2 ^ 63 - 1) = none ∧
    serve oneFile (generateFileId (seedOf 122)) 0 (2 ^ 63 - 1) = none ∧
    ¬ RangeRight oneFile (generateFileId (seedOf 122)) oneFileData (str "abc") 1 (2 ^ 63 - 1) ∧
    ¬ ServeRight oneFile (generateFileId (seedOf 122)) 0 (2 ^ 63 - 1) := by
  have hread : FileService.readFileRange oneFile (generateFileId (seedOf 122)) 1 (2 ^ 63 - 1) =
      none := by decide +kernel
  have hserve : serve oneFile (generateFileId (seedOf 122)) 0 (2 ^ 63 - 1) = none := by
    decide +kernel
  refine ⟨hread, hserve, ?_, not_serveRight hserve⟩
  rw [RangeRight, hread]
  simp

end SwiftChat.File
