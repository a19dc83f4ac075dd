import Ipcf.Split.Receive

/-!
# Damaged slices

What the checksum of a slice is worth to its receiver.  A slice that was altered within two
adjacent bytes before its checksum, or in its checksum, fails the check of `cp_slice_to_rse`
(`sliceCsumOk_damaged`), so that no receive session ever sees anything of it.

The checksum is over the slice with the checksum field preset, so the two kinds of damage differ:
the first changes what the checksum is over (`crc16_burst`), the second only what it is compared
with (`slice_eq_of_csumOk`).
-/

namespace Ipcf

/-- What `s` and `s'`, the slice as it was sent and as it arrives, still have in common. -/
inductive Damaged (s s' : Bytes) : Prop
  | burst (i : ℕ) (hi : i + 2 ≤ 34) (hout : ∀ j, j < i ∨ i + 2 ≤ j → s[j]? = s'[j]?)
  | csum (hout : ∀ j < 34, s[j]? = s'[j]?)

variable {s s' : Bytes}

lemma getElem?_slicePreset {j : ℕ} (hs : s.length = sliceLen) :
    (slicePreset s)[j]? = if j < 34 then s[j]? else (le16 0xffff)[j - 34]? := by
  have hlen : (s.take 34).length = 34 := by
    rw [List.length_take, hs]
    rfl
  rw [slicePreset]
  split_ifs with hj
  · rw [List.getElem?_append_left (by omega), List.getElem?_take, if_pos hj]
  · rw [List.getElem?_append_right (by omega), hlen]

/-- The slices have the bytes before the checksum in common as far as their preset forms do. -/
lemma getElem?_slicePreset_eq (hs : s.length = sliceLen) (hs' : s'.length = sliceLen) {j : ℕ}
    (h : j < 34 → s[j]? = s'[j]?) : (slicePreset s)[j]? = (slicePreset s')[j]? := by
  rw [getElem?_slicePreset hs, getElem?_slicePreset hs']
  split_ifs with hj
  · exact h hj
  · rfl

lemma length_slicePreset (hs : s.length = sliceLen) : (slicePreset s).length = sliceLen := by
  rw [slicePreset, List.length_append, List.length_take, hs]
  rfl

/-- Damage before the checksum leaves the checksum, which is then another one's. -/
lemma slicePreset_of_burst (hs : s.length = sliceLen) (hs' : s'.length = sliceLen)
    (hok : sliceCsumOk s = true) (hok' : sliceCsumOk s' = true) {i : ℕ} (hi : i + 2 ≤ 34)
    (hout : ∀ j, j < i ∨ i + 2 ≤ j → s[j]? = s'[j]?) : slicePreset s = slicePreset s' := by
  rw [sliceCsumOk, beq_iff_eq] at hok hok'
  have hcsum : sliceCsum s = sliceCsum s' := by
    rw [sliceCsum, sliceCsum]
    simp only [List.getD_eq_getElem?_getD]
    rw [hout 34 (.inr hi), hout 35 (.inr (by omega))]
  rw [hok, hok', csum16, csum16] at hcsum
  refine crc16_burst ?_ ?_ (fun j hj => getElem?_slicePreset_eq hs hs' fun _ => hout j hj) hcsum
  · rw [length_slicePreset hs, length_slicePreset hs']
  · rw [length_slicePreset hs]
    simp only [sliceLen]
    omega

/-- **Damage is noticed.** -/
lemma sliceCsumOk_damaged (hs : s.length = sliceLen) (hs' : s'.length = sliceLen)
    (hok : sliceCsumOk s = true) (hne : s ≠ s') (hdamage : Damaged s s') :
    sliceCsumOk s' = false := by
  by_contra hok'
  rw [Bool.not_eq_false] at hok'
  apply hne
  apply slice_eq_of_csumOk hs hs' hok hok'
  cases hdamage with
  | burst i hi hout => exact slicePreset_of_burst hs hs' hok hok' hi hout
  | csum hout =>
    apply List.ext_getElem?
    exact fun j => getElem?_slicePreset_eq hs hs' (hout j)

/-- A slice that fails the check leaves no trace. -/
lemma cpSliceToRse_of_csum_bad (se : Rse) (h : sliceCsumOk s = false) :
    cpSliceToRse se s = (se, []) := by
  rw [cpSliceToRse, h]
  rfl

/-- **Damaged slices are rejected without trace.** Whatever `fill_slice_k` built and whichever
receive session it reaches: after damage within two adjacent bytes before the checksum, or in the
checksum, the session is left as it was and its arrays are not touched. -/
theorem cpSliceToRse_damaged (se : Rse) (k : UInt8) {src : Bytes}
    (hsrc : src.length ≤ sliceDataLen) (hs' : s'.length = sliceLen)
    (hne : fillSliceK k src ≠ s') (hdamage : Damaged (fillSliceK k src) s') :
    cpSliceToRse se s' = (se, []) := by
  apply cpSliceToRse_of_csum_bad
  exact sliceCsumOk_damaged (length_fillSliceK k hsrc) hs' (sliceCsumOk_fillSliceK k hsrc) hne
    hdamage

/-- A byte of the data is lost on the way. -/
theorem cpSliceToRse_damaged_data :
    cpSliceToRse (resetRse 0) ((fillSliceK 7 [1, 2, 3]).set 3 0) = (resetRse 0, []) := by
  have hsrc : ([1, 2, 3] : Bytes).length ≤ sliceDataLen := by decide
  apply cpSliceToRse_damaged (resetRse 0) 7 hsrc (by decide +kernel) (by decide +kernel)
  refine .burst 3 (by decide) fun j hj => ?_
  rw [List.getElem?_set_ne]
  omega

end Ipcf
