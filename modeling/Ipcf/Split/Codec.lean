import Ipcf.Split.Accept

/-!
# The codec in both directions

`en_frame` and `de_frame` are inverse to each other, wherever the frame stands in the stream and
whatever follows it: what was written is read back (`enFrame_deFrame`), and nothing but what would
be written is read with success.  A frame that was cut is read back as a prefix of its data, never
with success (`deFrame_cut`); `lower_put`, which goes on with what it has got, then works on a
prefix of the frame that was sent.

The lengths are `u16` in the source.  Nothing here needs the bound.
-/

namespace Ipcf

/-- The number of bytes the escaped form of `data` takes, without the breaks around it. -/
def stuffedLen (data : Bytes) : ℕ :=
  (data.map fun c => if c = breakChar ∨ c = escapeChar then 2 else 1).sum

lemma length_stuff_slip (data : Bytes) : (slip.stuff data).length = stuffedLen data := by
  induction data with
  | nil => rfl
  | cons c data ih =>
    have hone : (slip.stuff1 c).length = if c = breakChar ∨ c = escapeChar then 2 else 1 := by
      have htwo := slip.length_stuff1_eq_two_iff c
      have hpos := slip.length_stuff1_pos c
      have hle := slip.length_stuff1_le c
      split_ifs with h
      · exact htwo.2 h
      · have : (slip.stuff1 c).length ≠ 2 := fun heq => h (htwo.1 heq)
        omega
    rw [slip.stuff_cons, List.length_append, ih, hone, stuffedLen, stuffedLen, List.map_cons,
      List.sum_cons]

lemma escapedLen_eq (data : Bytes) : escapedLen data = 2 + stuffedLen data := by
  rw [escapedLen, length_stuff_slip]

/-! ## Reading from anywhere in the stream -/

/-- What stands before the first break is skipped. -/
lemma deFrame_skip {pre : Bytes} (h : breakChar ∉ pre) (frm : Bytes) (len : ℕ) :
    deFrame (pre ++ frm) len = deFrame frm len := by
  induction pre with
  | nil => rfl
  | cons c pre ih =>
    have hc : c ≠ breakChar := fun heq => h (by simp [heq])
    have hrest := ih fun hmem => h (by simp [hmem])
    rw [deFrame, List.cons_append, deFrameLoop, if_neg hc]
    exact hrest

/-- Without a break nothing is read. -/
lemma deFrame_no_break {frm : Bytes} (h : breakChar ∉ frm) (len : ℕ) :
    deFrame frm len = ⟨-1, []⟩ := by
  have := deFrame_skip h [] len
  rw [List.append_nil] at this
  rw [this]
  rfl

lemma stopCode_eq_zero {stop : Stuffing.Stop} (h : stopCode stop = 0) : stop = .closed := by
  cases stop with
  | closed => rfl
  | cut => cases h
  | dangling => cases h
  | unknown => cases h

/-- What is read with success is a complete frame, with no break before it. -/
lemma eq_framed_of_deFrame {frm : Bytes} {len : ℕ} (h : (deFrame frm len).ret = 0) :
    ∃ pre post, frm = pre ++ framed (deFrame frm len).buf ++ post ∧ breakChar ∉ pre := by
  by_cases hbreak : breakChar ∈ frm
  · obtain ⟨pre, rest, rfl, hpre⟩ := List.eq_append_cons_of_mem hbreak
    rw [deFrame_skip hpre, deFrame_break] at h ⊢
    simp only at h ⊢
    split_ifs at h with hroom
    · have hclosed := stopCode_eq_zero h
      obtain ⟨post, hrest⟩ := slip.eq_stuff_of_closed (Prod.ext rfl hclosed)
      refine ⟨pre, post, ?_, hpre⟩
      rw [List.take_of_length_le hroom, framed, List.append_assoc, List.append_assoc]
      conv_lhs => rw [hrest]
      simp
  · rw [deFrame_no_break hbreak] at h
    cases h

/-- **The codec is a bijection.** `en_frame` succeeds exactly when the escaped data and the two
breaks fit; then no break stands inside the frame, and `de_frame` reads the data back from
wherever the frame stands behind bytes without a break.  And whatever `de_frame` reads with
success is, from the first break through the second, the frame `en_frame` makes of it. -/
theorem enFrame_deFrame :
    (∀ (data : Bytes) (size : ℕ),
      (0 ≤ (enFrame data size).ret ↔ 2 + stuffedLen data ≤ size) ∧
      (0 ≤ (enFrame data size).ret →
        (enFrame data size).ret = (enFrame data size).frm.length ∧
        ∃ inner, (enFrame data size).frm = breakChar :: inner ++ [breakChar] ∧
          breakChar ∉ inner ∧
          ∀ (pre post : Bytes) (len : ℕ), breakChar ∉ pre → data.length ≤ len →
            deFrame (pre ++ (enFrame data size).frm ++ post) len = ⟨0, data⟩)) ∧
    ∀ (frm : Bytes) (len : ℕ), (deFrame frm len).ret = 0 →
      ∃ pre inner post, frm = pre ++ (breakChar :: inner ++ [breakChar]) ++ post ∧
        breakChar ∉ pre ∧ breakChar ∉ inner ∧
        ∀ size, inner.length + 2 ≤ size →
          enFrame (deFrame frm len).buf size =
            ⟨inner.length + 2, (deFrame frm len).buf.length,
              breakChar :: inner ++ [breakChar]⟩ := by
  constructor
  · intro data size
    rw [← escapedLen_eq]
    have hsucceeds : 0 ≤ (enFrame data size).ret ↔ escapedLen data ≤ size := by
      by_cases hsize : 1 ≤ size
      · rw [enFrame_eq data hsize]
        split_ifs with hfit
        · exact ⟨fun _ => hfit, fun _ => Int.natCast_nonneg _⟩
        · simp [hfit]
      · have hlt : size < 1 := by omega
        rw [enFrame, if_pos hlt]
        simp only [escapedLen]
        omega
    refine ⟨hsucceeds, fun hret => ?_⟩
    have hfit := hsucceeds.1 hret
    have hsize : 1 ≤ size := by
      unfold escapedLen at hfit
      omega
    rw [enFrame_eq data hsize, if_pos hfit]
    refine ⟨by rw [length_framed], slip.stuff data, rfl, slip.delim_notMem_stuff data, ?_⟩
    intro pre post len hpre hlen
    have hread : slip.unstuff (slip.stuff data ++ breakChar :: post) = (data, .closed) :=
      slip.unstuff_closed data post
    rw [List.append_assoc, deFrame_skip hpre, framed, List.append_assoc, List.cons_append,
      deFrame_break, List.singleton_append, hread]
    simp [hlen, stopCode, List.take_of_length_le hlen]
  · intro frm len hret
    obtain ⟨pre, post, hfrm, hpre⟩ := eq_framed_of_deFrame hret
    refine ⟨pre, slip.stuff (deFrame frm len).buf, post, hfrm, hpre,
      slip.delim_notMem_stuff _, ?_⟩
    intro size hsize
    have hfit : escapedLen (deFrame frm len).buf ≤ size := by
      unfold escapedLen
      omega
    rw [enFrame_eq _ (by omega), if_pos hfit, escapedLen, framed, Nat.add_comm]
    rfl

/-! ## Cut frames -/

/-- A frame that was cut anywhere is not read with success, and what is read of it is a prefix of
its data. -/
lemma deFrame_of_cut {data zs : Bytes} (h : zs <+: framed data) (hcut : zs ≠ framed data)
    (len : ℕ) : (deFrame zs len).ret < 0 ∧ (deFrame zs len).buf <+: data := by
  cases zs with
  | nil =>
    rw [deFrame_no_break (by simp)]
    exact ⟨by decide, List.nil_prefix⟩
  | cons c zs =>
    obtain ⟨rfl, hzs⟩ := List.cons_prefix_cons.1 h
    have hstuff : zs <+: slip.stuff data := by
      rcases List.prefix_concat_iff.1 hzs with hall | hpre
      · exact absurd (congrArg (breakChar :: ·) hall) hcut
      · exact hpre
    obtain ⟨hpre, hstop⟩ := slip.unstuff_of_prefix hstuff
    rw [deFrame_break]
    constructor
    · simp only
      split_ifs
      · rcases hstop with hstop | hstop <;> rw [hstop] <;> decide
      · decide
    · exact (List.take_prefix _ _).trans hpre

/-- With or without room for all of it, what `en_frame` has written is a prefix of the complete
frame. -/
lemma enFrame_prefix_framed (data : Bytes) (size : ℕ) :
    (enFrame data size).frm <+: framed data := by
  by_cases hsize : 1 ≤ size
  · rw [enFrame_eq data hsize]
    split_ifs
    · exact List.prefix_rfl
    · set k := slip.fit (size - 1) data
      refine ⟨slip.stuff (data.drop k) ++ [breakChar], ?_⟩
      have hsplit : slip.stuff data = slip.stuff (data.take k) ++ slip.stuff (data.drop k) := by
        rw [← slip.stuff_append, List.take_append_drop]
      rw [framed, hsplit]
      simp
  · rw [enFrame, if_pos (by omega)]
    exact List.nil_prefix

/-- **Cut frames.** A proper prefix of a frame, and any prefix of what `en_frame` has written when
it ran out of room, is read with a negative code, and yields a prefix of the data; so what
`lower_put` works on is a prefix of the data as well.  When `en_frame` runs out of room, the number
it stores is that of the longest prefix of the data that fits behind the opening break, and this
prefix is what is read back. -/
theorem deFrame_cut (data : Bytes) (size : ℕ) :
    (∀ zs, zs <+: (enFrame data size).frm →
      (0 ≤ (enFrame data size).ret → zs ≠ (enFrame data size).frm) →
      recvBuf zs <+: data ∧
      ∀ len, data.length ≤ len → (deFrame zs len).ret < 0 ∧ (deFrame zs len).buf <+: data) ∧
    (1 ≤ size → (enFrame data size).ret < 0 →
      (enFrame data size).dataLen ≤ data.length ∧
      1 + stuffedLen (data.take (enFrame data size).dataLen) ≤ size ∧
      (∀ j ≤ data.length, 1 + stuffedLen (data.take j) ≤ size → j ≤ (enFrame data size).dataLen) ∧
      ∀ len, (enFrame data size).dataLen ≤ len →
        (deFrame (enFrame data size).frm len).ret < 0 ∧
        (deFrame (enFrame data size).frm len).buf = data.take (enFrame data size).dataLen) := by
  constructor
  · intro zs hzs hproper
    have hpre : zs <+: framed data := hzs.trans (enFrame_prefix_framed data size)
    have hne : zs ≠ framed data := by
      intro hall
      have hfrm : (enFrame data size).frm = framed data :=
        (enFrame_prefix_framed data size).eq_of_length_le (hall ▸ hzs.length_le)
      by_cases hret : 0 ≤ (enFrame data size).ret
      · exact hproper hret (hall.trans hfrm.symm)
      · -- out of room, the closing break at least is missing
        by_cases hsize : 1 ≤ size
        · rw [enFrame_eq data hsize] at hret hfrm
          split_ifs at hret hfrm with hfit
          · exact hret (Int.natCast_nonneg _)
          · have hmem : breakChar ∈ slip.stuff (data.take (slip.fit (size - 1) data)) := by
              rw [(List.cons.inj hfrm).2]
              simp
            exact slip.delim_notMem_stuff _ hmem
        · rw [enFrame, if_pos (by omega)] at hfrm
          cases hfrm
    refine ⟨?_, fun len _ => deFrame_of_cut hpre hne len⟩
    have hcut : zs.take (zs.length % 65536) <+: zs := List.take_prefix _ _
    refine (deFrame_of_cut (hcut.trans hpre) (fun hall => hne ?_) linkMtu).2
    exact hpre.eq_of_length_le (hall ▸ hcut.length_le)
  · intro hsize hret
    rw [enFrame_eq data hsize] at hret ⊢
    split_ifs at hret ⊢ with hfit
    · exact absurd hret (by simp)
    · set k := slip.fit (size - 1) data with hk
      have hkle : k ≤ data.length := slip.fit_le_length _ _
      have hfits : ∀ j ≤ data.length, 1 + stuffedLen (data.take j) ≤ size ↔ j ≤ k := by
        intro j hj
        rw [hk, slip.le_fit_iff _ _ hj, length_stuff_slip]
        omega
      refine ⟨hkle, (hfits k hkle).2 (Nat.le_refl k), fun j hj h => (hfits j hj).1 h, ?_⟩
      intro len (hlen : k ≤ len)
      have hread : slip.unstuff (slip.stuff (data.take k)) = (data.take k, .cut) := by
        have := slip.unstuff_stuff_append (data.take k) []
        rwa [List.append_nil, slip.unstuff_nil, List.append_nil] at this
      have hroom : (data.take k).length ≤ len := by
        rw [List.length_take]
        omega
      rw [deFrame_break, hread]
      simp only [if_pos hroom, List.take_of_length_le hroom, and_true]
      decide

end Ipcf
