import SwiftChat.Base.Checked
import SwiftChat.Chat.GroupStore

/-! The pages of a member list, with the 32-bit arithmetic they are cut by. -/
namespace SwiftChat.Chat
open Base

namespace GroupStore

/-- `GetMembers` with its arithmetic on `int`: no result when an operation overflows or an iterator
leaves the list. The number of members is cast to `int`. -/
def getMembersInt (db : GroupDb) (groupId : Bytes) (page pageSize : Int) :
    Option (List GroupMemberData × Int) :=
  if groupId = [] then some ([], 0)
  else
    let all := allMembers db groupId
    let total := wrap 32 all.length
    let page := if page ≤ 0 then 1 else page
    let pageSize := if pageSize ≤ 0 then 50 else pageSize
    do
      let before ← checked 32 (page - 1)
      let offset ← checked 32 (before * pageSize)
      if offset ≥ total then return ([], total)
      let stop ← checked 32 (offset + pageSize)
      let members ← between all offset (min stop total)
      return (members, total)

end GroupStore
open GroupStore
variable {db : GroupDb} {g : Bytes} {page pageSize : Int} {p q : Nat} {n : Nat}

/-- The page and the size that a request stands for. -/
def pageNumberOf (page : Int) : Int := if page ≤ 0 then 1 else page

def pageSizeOf (pageSize : Int) : Int := if pageSize ≤ 0 then 50 else pageSize

/-- The call returns members that stand in a row in the member list. -/
def Sliced (db : GroupDb) (g : Bytes) (page pageSize : Int) : Prop :=
  ∃ r, getMembersInt db g page pageSize = some r ∧ r.1 <:+: allMembers db g

/-- The pages from the first to the first empty one make up the member list. -/
def Tiled (db : GroupDb) (g : Bytes) (pageSize : Int) : Prop :=
  ∃ pages : List (List GroupMemberData),
    Fits 32 (pages.length + 1) ∧
    (∀ (i : Nat) (h : i < pages.length),
      pages[i] ≠ [] ∧ (getMembersInt db g (i + 1) pageSize).map Prod.fst = some pages[i]) ∧
    (getMembersInt db g (pages.length + 1) pageSize).map Prod.fst = some [] ∧
    pages.flatten = allMembers db g

/-- Neither the offset of a page nor, if it is on the list, its end leaves the `int` range. -/
def PageFits (n : Nat) (page pageSize : Int) : Prop :=
  let offset := (pageNumberOf page - 1) * pageSizeOf pageSize
  offset < 2 ^ 31 ∧ (offset < wrap 32 n → offset + pageSizeOf pageSize < 2 ^ 31)

instance (n : Nat) (page pageSize : Int) : Decidable (PageFits n page pageSize) :=
  inferInstanceAs (Decidable (_ ∧ _))

/-- The end of the last page and the number of the page behind it are values of `int`. -/
def PagesFit (n : Nat) (pageSize : Int) : Prop :=
  pageCount n pageSize.toNat * pageSize < 2 ^ 31 ∧ (pageCount n pageSize.toNat + 1 : Int) < 2 ^ 31

instance (n : Nat) (pageSize : Int) : Decidable (PagesFit n pageSize) :=
  inferInstanceAs (Decidable (_ ∧ _))

theorem pageNumberOf_pos (page : Int) : 1 ≤ pageNumberOf page := by
  rw [pageNumberOf]
  split <;> omega

theorem pageSizeOf_pos (pageSize : Int) : 1 ≤ pageSizeOf pageSize := by
  rw [pageSizeOf]
  split <;> omega

/-- What the arithmetic comes to for a page with the given offset. -/
theorem getMembersInt_eq (hg : g ≠ []) (hpage : Fits 32 page) {offset total : Int}
    (hoffset : offset = (pageNumberOf page - 1) * pageSizeOf pageSize)
    (htotal : total = wrap 32 (allMembers db g).length) :
    getMembersInt db g page pageSize =
      if 2 ^ 31 ≤ offset then none
      else if total ≤ offset then some ([], total)
      else if 2 ^ 31 ≤ offset + pageSizeOf pageSize then none
      else some (((allMembers db g).drop offset.toNat).take
        (min (offset + pageSizeOf pageSize) total - offset).toNat, total) := by
  have hp := pageNumberOf_pos page
  have hq := pageSizeOf_pos pageSize
  have hnonneg : 0 ≤ offset := hoffset ▸ Int.mul_nonneg (by omega) (by omega)
  have hle : total ≤ (allMembers db g).length := htotal ▸ wrap_natCast_le _
  have hbefore : Fits 32 (pageNumberOf page - 1) := by
    obtain ⟨hlo, hhi⟩ := hpage
    rw [pageNumberOf] at hp ⊢
    split
    · exact ⟨by omega, by omega⟩
    · exact ⟨by omega, by omega⟩
  have hrun : getMembersInt db g page pageSize =
      (checked 32 (pageNumberOf page - 1)).bind fun before =>
        (checked 32 (before * pageSizeOf pageSize)).bind fun offset =>
          if offset ≥ total then some ([], total)
          else (checked 32 (offset + pageSizeOf pageSize)).bind fun stop =>
            (between (allMembers db g) offset (min stop total)).bind fun members =>
              some (members, total) := by
    simp only [getMembersInt, hg, if_false, ← htotal, pageNumberOf, pageSizeOf, Option.bind_eq_bind,
      Option.pure_def]
  rw [hrun, checked_of_fits hbefore, Option.bind_some, ← hoffset]
  by_cases hbig : 2 ^ 31 ≤ offset
  · rw [checked_of_not_fits ((fits_iff_of_nonneg hnonneg).not.mpr (by omega)), if_pos hbig]
    rfl
  · rw [checked_of_fits ((fits_iff_of_nonneg hnonneg).mpr (by omega)), Option.bind_some,
      if_neg hbig]
    by_cases hempty : total ≤ offset
    · rw [if_pos hempty, if_pos hempty]
    · rw [if_neg hempty, if_neg hempty]
      have hsum : 0 ≤ offset + pageSizeOf pageSize := by omega
      by_cases hend : 2 ^ 31 ≤ offset + pageSizeOf pageSize
      · rw [checked_of_not_fits ((fits_iff_of_nonneg hsum).not.mpr (by omega)), if_pos hend]
        rfl
      · have hinside : 0 ≤ offset ∧ offset ≤ min (offset + pageSizeOf pageSize) total ∧
            min (offset + pageSizeOf pageSize) total ≤ (allMembers db g).length := by omega
        rw [checked_of_fits ((fits_iff_of_nonneg hsum).mpr (by omega)), if_neg hend,
          Option.bind_some, between, if_pos hinside]
        rfl

/-- A page within the range of `int` is cut from the list; an overflow has no result. -/
theorem sliced_iff (hg : g ≠ []) (hpage : Fits 32 page) :
    Sliced db g page pageSize ↔ PageFits (allMembers db g).length page pageSize := by
  rw [Sliced, getMembersInt_eq hg hpage rfl rfl, PageFits]
  generalize (pageNumberOf page - 1) * pageSizeOf pageSize = offset
  generalize wrap 32 (allMembers db g).length = total
  split
  · rename_i hbig
    simp only [false_and, exists_const, false_iff, reduceCtorEq]
    omega
  · split
    · rename_i hempty
      refine iff_of_true ⟨_, rfl, List.nil_infix⟩ ⟨by omega, fun h => by omega⟩
    · split
      · simp only [false_and, exists_const, false_iff, reduceCtorEq]
        omega
      · refine iff_of_true ⟨_, rfl, ?_⟩ ⟨by omega, fun _ => by omega⟩
        exact (List.take_prefix _ _).isInfix.trans (List.drop_suffix _ _).isInfix

/-- The page with number `i + 1`. -/
theorem getMembersInt_page (hg : g ≠ []) {i size : Nat} {total : Int} (hsize : 0 < size)
    (hi : Fits 32 (i + 1)) (htotal : total = wrap 32 (allMembers db g).length) :
    (getMembersInt db g (i + 1) size).map Prod.fst =
      if 2 ^ 31 ≤ i * size then none
      else if total ≤ (i * size : Nat) then some []
      else if 2 ^ 31 ≤ i * size + size then none
      else some (((allMembers db g).drop (i * size)).take
        (min (i * size + size) total.toNat - i * size)) := by
  have hp : pageNumberOf (i + 1) = i + 1 := if_neg (by omega)
  have hq : pageSizeOf size = size := if_neg (by omega)
  have hoffset : ((i * size : Nat) : Int) = (pageNumberOf (i + 1) - 1) * pageSizeOf size := by
    rw [hp, hq, Int.add_sub_cancel, Int.natCast_mul]
  rw [getMembersInt_eq hg hi hoffset htotal, hq]
  generalize i * size = offset
  by_cases hbig : 2 ^ 31 ≤ offset
  · rw [if_pos (by omega), if_pos hbig]
    rfl
  · rw [if_neg (by omega), if_neg hbig]
    by_cases hempty : total ≤ (offset : Int)
    · rw [if_pos hempty, if_pos hempty]
      rfl
    · rw [if_neg hempty, if_neg hempty]
      by_cases hend : 2 ^ 31 ≤ offset + size
      · rw [if_pos (by omega), if_pos hend]
        rfl
      · have hcount : (min ((offset : Int) + size) total - offset).toNat =
            min (offset + size) total.toNat - offset := by omega
        rw [if_neg (by omega), if_neg hend, hcount, Int.toNat_natCast]
        rfl

/-- With fewer than `2 ^ 31` members the cast keeps their number. -/
theorem wrap_eq_length {n : Nat} (h : n < 2 ^ 31) : wrap 32 n = n :=
  wrap_of_fits ⟨by omega, by omega⟩

theorem tiled_of_pagesFit (hg : g ≠ []) {size : Nat} (hsize : 0 < size)
    (h : PagesFit (allMembers db g).length size) : Tiled db g size := by
  obtain ⟨hend, hbehind⟩ := h
  rw [Int.toNat_natCast] at hend hbehind
  have hle := le_pageCount_mul (n := (allMembers db g).length) hsize
  have hlast : pageCount (allMembers db g).length size * size < 2 ^ 31 := by exact_mod_cast hend
  have htotal : ((allMembers db g).length : Int) = wrap 32 (allMembers db g).length :=
    (wrap_eq_length (by omega)).symm
  refine ⟨(List.range (pageCount (allMembers db g).length size)).map
    (offsetPage (allMembers db g) size), ?_, ?_, ?_, ?_⟩
  · rw [List.length_map, List.length_range]
    exact ⟨by omega, by omega⟩
  · intro i hi
    rw [List.length_map, List.length_range] at hi
    have hstart := mul_lt_of_lt_pageCount hsize hi
    have hstop : (i + 1) * size ≤ pageCount (allMembers db g).length size * size :=
      Nat.mul_le_mul_right size hi
    rw [Nat.succ_mul] at hstop
    rw [List.getElem_map, List.getElem_range]
    refine ⟨offsetPage_ne_nil hsize hstart, ?_⟩
    rw [getMembersInt_page hg hsize ⟨by omega, by omega⟩ htotal, if_neg (by omega),
      if_neg (by omega), if_neg (by omega), Int.toNat_natCast, take_min_eq_offsetPage]
  · rw [List.length_map, List.length_range,
      getMembersInt_page hg hsize ⟨by omega, by omega⟩ htotal, if_neg (by omega),
      if_pos (by omega)]
  · rw [← List.flatMap_def, flatMap_offsetPage, List.take_of_length_le hle]

/-- A page with members was computed, and has at most `size` of them. -/
theorem members_page_bounds (hg : g ≠ []) {i size : Nat} {r : List GroupMemberData}
    (hsize : 0 < size) (hi : Fits 32 ((i : Int) + 1)) (hne : r ≠ [])
    (heq : (getMembersInt db g (i + 1) size).map Prod.fst = some r) :
    i * size + size < 2 ^ 31 ∧ (i * size : Nat) < wrap 32 (allMembers db g).length ∧
      r.length ≤ size := by
  rw [getMembersInt_page hg hsize hi rfl] at heq
  split at heq
  · cases heq
  · split at heq
    · exact absurd (Option.some.inj heq).symm hne
    · split at heq
      · cases heq
      · refine ⟨by omega, by omega, ?_⟩
        rw [← Option.some.inj heq, List.length_take]
        omega

/-- A page without members was computed too, and stands behind the list. -/
theorem empty_page_bounds (hg : g ≠ []) {i size : Nat} (hsize : 0 < size)
    (hi : Fits 32 ((i : Int) + 1))
    (heq : (getMembersInt db g (i + 1) size).map Prod.fst = some []) :
    i * size < 2 ^ 31 ∧ wrap 32 (allMembers db g).length ≤ (i * size : Nat) := by
  rw [getMembersInt_page hg hsize hi rfl] at heq
  split at heq
  · cases heq
  · refine ⟨by omega, ?_⟩
    by_contra hmore
    rw [if_neg hmore] at heq
    split at heq
    · cases heq
    · have hlen := congrArg List.length (Option.some.inj heq)
      have hcast := wrap_natCast_le (allMembers db g).length
      simp only [List.length_take, List.length_drop, List.length_nil] at hlen
      omega

/-- Where the pages make up the list, the last offset and the last end were computed. -/
theorem pagesFit_of_tiled (hg : g ≠ []) {size : Nat} (hsize : 0 < size) (h : Tiled db g size) :
    PagesFit (allMembers db g).length size := by
  obtain ⟨pages, hfits, hpages, hlast, hflatten⟩ := h
  have hpage (i : Nat) (hi : i < pages.length) :
      i * size + size < 2 ^ 31 ∧ (i * size : Nat) < wrap 32 (allMembers db g).length ∧
        pages[i].length ≤ size := by
    obtain ⟨hne, heq⟩ := hpages i hi
    exact members_page_bounds hg hsize ⟨by omega, by have := hfits.2; omega⟩ hne heq
  have hbehind := empty_page_bounds hg hsize hfits hlast
  have hlen : (allMembers db g).length ≤ pages.length * size := by
    rw [← hflatten]
    apply length_flatten_le
    intro page hmem
    obtain ⟨i, hi, rfl⟩ := List.mem_iff_getElem.mp hmem
    exact (hpage i hi).2.2
  have htotal := wrap_eq_length (n := (allMembers db g).length) (by omega)
  have hcount : pages.length = pageCount (allMembers db g).length size := by
    apply eq_pageCount hsize hlen
    intro i hi
    have := (hpage i hi).2.1
    omega
  rw [PagesFit, Int.toNat_natCast, ← hcount]
  exact ⟨by exact_mod_cast hbehind.1, by have := hfits.2; omega⟩

/-- Where nothing overflows, the call with unbounded numbers gives the same members. -/
theorem getMembers_of_getMembersInt {r : List GroupMemberData × Int} (hpage : Fits 32 page)
    (hn : (allMembers db g).length < 2 ^ 31) (h : getMembersInt db g page pageSize = some r) :
    getMembers db g page pageSize = r := by
  by_cases hg : g = []
  · rw [getMembersInt, if_pos hg] at h
    rw [getMembers, if_pos hg]
    exact Option.some.inj h
  · obtain ⟨total, htotal⟩ : ∃ z : Int, z = (allMembers db g).length := ⟨_, rfl⟩
    have hunbounded : getMembers db g page pageSize =
        if (pageNumberOf page - 1) * pageSizeOf pageSize ≥ total then ([], total)
        else (((allMembers db g).drop ((pageNumberOf page - 1) * pageSizeOf pageSize).toNat).take
          (min ((pageNumberOf page - 1) * pageSizeOf pageSize + pageSizeOf pageSize) total -
            (pageNumberOf page - 1) * pageSizeOf pageSize).toNat, total) := by
      rw [getMembers, if_neg hg, htotal]
      rfl
    rw [getMembersInt_eq hg hpage rfl (htotal.trans (wrap_eq_length hn).symm)] at h
    rw [hunbounded]
    split at h
    · cases h
    · split at h
      · rename_i hempty
        rw [if_pos hempty]
        exact Option.some.inj h
      · rename_i hstart
        rw [if_neg hstart]
        split at h
        · cases h
        · exact Option.some.inj h

/-- A page is cut from the member list exactly when its offset and end are values of `int`, and the
pages make up the list exactly when the end of the last one and the number behind it are. -/
theorem getMembersInt_pages_iff (db : GroupDb) (g : Bytes) (hg : g ≠ []) :
    (∀ page pageSize, Fits 32 page → Fits 32 pageSize →
      (Sliced db g page pageSize ↔ PageFits (allMembers db g).length page pageSize)) ∧
    ∀ pageSize, 1 ≤ pageSize → Fits 32 pageSize →
      (Tiled db g pageSize ↔ PagesFit (allMembers db g).length pageSize) := by
  constructor
  · intro page pageSize hpage _
    exact sliced_iff hg hpage
  · intro pageSize hsize _
    obtain ⟨size, rfl⟩ := Int.eq_ofNat_of_zero_le (by omega : 0 ≤ pageSize)
    exact ⟨pagesFit_of_tiled hg (by omega), tiled_of_pagesFit hg (by omega)⟩

/-- A group with three members. -/
def threeMembers : GroupDb :=
  OrderedMap.empty.write [.put (keyGroupMember (str "g") (str "a")) (.member { userId := str "a" }),
    .put (keyGroupMember (str "g") (str "b")) (.member { userId := str "b" }),
    .put (keyGroupMember (str "g") (str "c")) (.member { userId := str "c" })]

theorem getMembersInt_pages_three :
    str "g" ≠ [] ∧ Fits 32 2 ∧ Sliced threeMembers (str "g") 2 2 ∧
      Tiled threeMembers (str "g") 2 := by
  have hlen : (allMembers threeMembers (str "g")).length = 3 := by decide +kernel
  have hlaw := getMembersInt_pages_iff threeMembers (str "g") (by decide +kernel)
  rw [hlen] at hlaw
  refine ⟨by decide +kernel, by decide, ?_, ?_⟩
  · exact (hlaw.1 2 2 (by decide) (by decide)).mpr (by decide +kernel)
  · exact (hlaw.2 2 (by decide) (by decide)).mpr (by decide +kernel)

/-- A page and a size whose product is twice the range of `int`. -/
theorem getMembersInt_overflow :
    Fits 32 65537 ∧ Fits 32 65536 ∧ getMembersInt threeMembers (str "g") 65537 65536 = none ∧
      ¬ Sliced threeMembers (str "g") 65537 65536 := by
  have hnone : getMembersInt threeMembers (str "g") 65537 65536 = none := by decide +kernel
  refine ⟨by decide, by decide, hnone, ?_⟩
  rintro ⟨r, hr, -⟩
  rw [hnone] at hr
  cases hr

end SwiftChat.Chat
