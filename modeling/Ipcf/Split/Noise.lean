import Ipcf.CrcErrors
import Ipcf.Split.Receives

/-!
# Noise on the wire

What can happen to the bytes of a frame on its way (`Noise`): it is cut, a byte of it is replaced,
or up to three of its bits are flipped, in bytes that are no part of the framing.  Behind `de_frame`
this is a frame that is cut, or has a replaced byte or flipped bits (`recvBuf_onWire`).

`accept_noise` is what the checksums make of it: whatever is still accepted has the headers that
were sent, apart from the half of the checksum that is not looked at, and its data is cut, or
blurred.  The checksum of an ACKP frame, over up to 37 bytes, does not see every two flipped bits,
so these frames have to be left out of the third kind of noise.
-/

namespace Ipcf

/-! ## On the wire -/

/-- A byte that is no part of the framing. -/
def Ordinary (c : UInt8) : Prop := c ≠ breakChar ∧ c ≠ escapeChar

instance : DecidablePred Ordinary := fun _ => inferInstanceAs (Decidable (_ ∧ _))

/-- One ordinary byte is replaced by another ordinary one. -/
def OnWire (R : UInt8 → UInt8 → Prop) (raw raw' : Bytes) : Prop :=
  ∃ pre a b post, raw = pre ++ a :: post ∧ raw' = pre ++ b :: post ∧ R a b ∧
    Ordinary a ∧ Ordinary b ∧ ¬ [escapeChar] <:+ pre

section

variable {R : UInt8 → UInt8 → Prop} {raw raw' : Bytes}

lemma deFrameLoop_ordinary (len : ℕ) {c : UInt8} (hc : Ordinary c) (frm : Bytes) (p : ℕ) :
    deFrameLoop len true (c :: frm) p =
      if p + 1 > len then ⟨-1, []⟩ else (deFrameLoop len true frm (p + 1)).push c := by
  rw [deFrameLoop.eq_def]
  simp only [if_neg hc.1, if_neg hc.2]

lemma deFrameLoop_escape (len : ℕ) (e : UInt8) (frm : Bytes) (p : ℕ) :
    deFrameLoop len true (escapeChar :: e :: frm) p =
      if e = escapeBreak then
        if p + 1 > len then ⟨-1, []⟩ else (deFrameLoop len true frm (p + 1)).push breakChar
      else if e = escapeEscape then
        if p + 1 > len then ⟨-1, []⟩ else (deFrameLoop len true frm (p + 1)).push escapeChar
      else ⟨-3, []⟩ := by
  rw [deFrameLoop.eq_def]
  simp only [if_neg escapeChar_ne_breakChar, if_true]

/-- Behind the same bytes `de_frame` is in the same state.  So a relation that what it stores keeps,
and that holds of what it stores of two rests, holds with these bytes in front, too. -/
lemma deFrameLoop_behind {S : Bytes → Bytes → Prop} (hrefl : ∀ x, S x x)
    (hcons : ∀ c x y, S x y → S (c :: x) (c :: y)) (len : ℕ) {frm frm' : Bytes}
    (hrest : ∀ start p, S (deFrameLoop len start frm p).buf (deFrameLoop len start frm' p).buf)
    (pre : Bytes) (hpair : [escapeChar] <:+ pre → ∀ p,
      S (deFrameLoop len true (escapeChar :: frm) p).buf
        (deFrameLoop len true (escapeChar :: frm') p).buf) (start : Bool) (p : ℕ) :
    S (deFrameLoop len start (pre ++ frm) p).buf (deFrameLoop len start (pre ++ frm') p).buf := by
  -- an escape pair takes two bytes at once, so the induction is on the length
  induction hn : pre.length using Nat.strong_induction_on generalizing pre start p with
  | _ n ih =>
    cases pre with
    | nil => exact hrest start p
    | cons c pre =>
      have hpair' := fun h : [escapeChar] <:+ pre => hpair (h.trans (List.suffix_cons c pre))
      have hlt : pre.length < n := by
        rw [← hn]
        exact Nat.lt_succ_self _
      cases start with
      | false =>
        rw [List.cons_append, List.cons_append, deFrameLoop, deFrameLoop]
        split_ifs
        · exact ih _ hlt pre hpair' true p rfl
        · exact ih _ hlt pre hpair' false p rfl
      | true =>
        by_cases hbreak : c = breakChar
        · rw [List.cons_append, List.cons_append, deFrameLoop.eq_def,
            deFrameLoop.eq_def len true (c :: (pre ++ frm'))]
          simp only [if_pos hbreak]
          exact hrefl _
        by_cases hesc : c = escapeChar
        · subst hesc
          cases pre with
          | nil => exact hpair List.suffix_rfl p
          | cons e pre =>
            have hafter := ih pre.length (by rw [List.length_cons] at hlt; omega) pre
              (fun h => hpair' (h.trans (List.suffix_cons e pre))) true (p + 1) rfl
            simp only [List.cons_append, deFrameLoop_escape]
            split_ifs
            · exact hrefl _
            · exact hcons breakChar _ _ hafter
            · exact hrefl _
            · exact hcons escapeChar _ _ hafter
            · exact hrefl _
        · have hc : Ordinary c := ⟨hbreak, hesc⟩
          rw [List.cons_append, List.cons_append, deFrameLoop_ordinary len hc,
            deFrameLoop_ordinary len hc]
          split_ifs
          · exact hrefl _
          · exact hcons c _ _ (ih _ hlt pre hpair' true (p + 1) rfl)

/-- `de_frame` stores the other byte, or neither of the two. -/
lemma deFrameLoop_onWire (len : ℕ) (start : Bool) (pre : Bytes) {a b : UInt8} (post : Bytes)
    (hR : R a b) (ha : Ordinary a) (hb : Ordinary b) (hpre : ¬ [escapeChar] <:+ pre) (p : ℕ) :
    (deFrameLoop len start (pre ++ a :: post) p).buf =
        (deFrameLoop len start (pre ++ b :: post) p).buf ∨
      Altered R (deFrameLoop len start (pre ++ a :: post) p).buf
        (deFrameLoop len start (pre ++ b :: post) p).buf := by
  refine deFrameLoop_behind (S := fun x y => x = y ∨ Altered R x y) (fun x => .inl rfl) ?_ len ?_
    pre (fun h => absurd h hpre) start p
  · intro c x y hxy
    rcases hxy with heq | halt
    · exact .inl (congrArg (c :: ·) heq)
    · exact .inr (halt.tail c)
  · intro start p
    cases start with
    | false => simp [deFrameLoop, ha.1, hb.1]
    | true =>
      rw [deFrameLoop_ordinary len ha, deFrameLoop_ordinary len hb]
      split_ifs
      · exact .inl rfl
      · exact .inr (.head hR _)

/-- What `de_frame` stores of the front of a frame is the front of what it stores. -/
lemma deFrameLoop_ofPrefix (len : ℕ) (start : Bool) (frm post : Bytes) (p : ℕ) :
    (deFrameLoop len start frm p).buf <+: (deFrameLoop len start (frm ++ post) p).buf := by
  have h : (deFrameLoop len start (frm ++ []) p).buf <+:
      (deFrameLoop len start (frm ++ post) p).buf := by
    refine deFrameLoop_behind (S := (· <+: ·)) (fun x => List.prefix_rfl)
      (fun c x y hxy => List.cons_prefix_cons.2 ⟨rfl, hxy⟩) len ?_ frm ?_ start p
    · intro start p
      rw [deFrameLoop]
      exact List.nil_prefix
    · intro _ p
      rw [deFrameLoop.eq_def]
      simp only [if_neg escapeChar_ne_breakChar, if_true]
      exact List.nil_prefix
  rwa [List.append_nil] at h

/-- In the buffer of `lower_put` one byte is another one, or none. -/
lemma recvBuf_onWire (h : OnWire R raw raw') :
    recvBuf raw = recvBuf raw' ∨ Altered R (recvBuf raw) (recvBuf raw') := by
  obtain ⟨pre, a, b, post, rfl, rfl, hR, ha, hb, hpre⟩ := h
  have hlen : (pre ++ a :: post).length = (pre ++ b :: post).length := by simp
  rw [recvBuf, recvBuf, ← hlen]
  generalize (pre ++ a :: post).length % 65536 = n
  rw [List.take_append, List.take_append]
  cases hn : n - pre.length with
  | zero => exact .inl rfl
  | succ m =>
    rw [List.take_of_length_le (show pre.length ≤ n by omega), List.take_succ_cons,
      List.take_succ_cons]
    exact deFrameLoop_onWire linkMtu false pre (post.take m) hR ha hb hpre 0

lemma recvBuf_ofPrefix (hshort : raw.length < 65536) (h : raw' <+: raw) :
    recvBuf raw' <+: recvBuf raw := by
  have hlen := h.length_le
  rw [recvBuf, recvBuf, Nat.mod_eq_of_lt hshort, Nat.mod_eq_of_lt (by omega), List.take_length,
    List.take_length]
  obtain ⟨post, rfl⟩ := h
  exact deFrameLoop_ofPrefix linkMtu false raw' post 0

end

/-! ## Headers and slices

The checksum of each is over itself with the checksum preset; behind these bytes the checksum brings
the register to zero. -/

section

variable {R : UInt8 → UInt8 → Prop} {buf buf' data data' rest rest' : Bytes} {fh fh' : FrmHdr}
  {mh mh' : MsgHdr}

/-- The part of a frame header before its checksum. -/
def FrmHdr.front (h : FrmHdr) : Bytes := [h.src, h.dst, h.type, h.reserved] ++ le16 h.len

lemma FrmHdr.read_eq_some : FrmHdr.read buf = some (fh, data) ↔ buf = fh.bytes ++ data := by
  constructor
  · intro h
    unfold FrmHdr.read at h
    split at h
    · obtain ⟨rfl, rfl⟩ : _ ∧ _ := by simpa using h
      simp [FrmHdr.bytes]
    · simp at h
  · rintro rfl
    exact FrmHdr.read_bytes_append fh data

/-- The word that the checksum of a frame header makes zero. -/
def frmWord (buf : Bytes) : Bytes := buf.take 6 ++ le16 0xff ++ (buf.drop 6).take 1

lemma local_frmWord : Local frmWord := (local_take 1).preset 6 (le16 0xff)

lemma frmWord_eq (h : FrmHdr.read buf = some (fh, data)) :
    frmWord buf = fh.front ++ le16 0xff ++ [fh.csum.toUInt8] := by
  rw [FrmHdr.read_eq_some.1 h]
  rfl

lemma FrmHdr.crc8_word (h : fh.csumOk = true) :
    crc8 0xff (fh.front ++ le16 0xff ++ [fh.csum.toUInt8]) = 0 := by
  rw [FrmHdr.csumOk, beq_iff_eq] at h
  rw [h]
  exact crc8_concat_self 0xff _

/-- **A frame header is seen through.**  With a good checksum it is the one that was sent, apart
from the high octet of the checksum. -/
lemma FrmHdr.eq_of_blurred (hread : FrmHdr.read buf = some (fh, data))
    (hread' : FrmHdr.read buf' = some (fh', data')) (hok : fh.csumOk = true)
    (hok' : fh'.csumOk = true) (h : Blurred buf buf') : ∃ c, fh' = { fh with csum := c } := by
  have hword := h.map local_frmWord
  rw [frmWord_eq hread, frmWord_eq hread'] at hword
  have heq := crc8_blurred (by simp [FrmHdr.front]) hword
    ((FrmHdr.crc8_word hok).trans (FrmHdr.crc8_word hok').symm)
  obtain ⟨hfront, -⟩ := List.append_inj (List.append_inj heq rfl).1 rfl
  simp only [FrmHdr.front, List.cons_append, List.nil_append, List.cons.injEq] at hfront
  obtain ⟨hsrc, hdst, htype, hreserved, hlen⟩ := hfront
  refine ⟨fh'.csum, ?_⟩
  obtain ⟨src, dst, type, reserved, len, csum⟩ := fh
  obtain ⟨src', dst', type', reserved', len', csum'⟩ := fh'
  simp only at hsrc hdst htype hreserved hlen
  rw [FrmHdr.mk.injEq]
  exact ⟨hsrc.symm, hdst.symm, htype.symm, hreserved.symm, le16_injective hlen.symm, rfl⟩

lemma FrmHdr.blurred_data (hread : FrmHdr.read buf = some (fh, data))
    (hread' : FrmHdr.read buf' = some (fh', data')) (h : Blurred buf buf') :
    Blurred data data' := by
  have hrest := h.map (local_drop frmHdrLen)
  rw [FrmHdr.read_eq_some.1 hread, FrmHdr.read_eq_some.1 hread'] at hrest
  exact hrest

/-- The part of a message header before its checksum. -/
def MsgHdr.front (h : MsgHdr) : Bytes := le32 h.dCsum ++ le16 h.len ++ le16 h.len2 ++ [h.seq]

lemma MsgHdr.read_eq_some : MsgHdr.read data = some (mh, rest) ↔ data = mh.bytes ++ rest := by
  constructor
  · intro h
    unfold MsgHdr.read at h
    split at h
    · obtain ⟨rfl, rfl⟩ : _ ∧ _ := by simpa using h
      simp [MsgHdr.bytes]
    · simp at h
  · rintro rfl
    exact MsgHdr.read_bytes_append mh rest

/-- The word that the checksum of a message header makes zero, where it is over the header. -/
def msgWord (data : Bytes) : Bytes := data.take 9 ++ [0xff] ++ (data.drop 9).take 1

/-- And where it is over the data too. -/
def msgDataWord (data : Bytes) : Bytes :=
  data.take 9 ++ [0xff] ++ ((data.drop 9).drop 1 ++ (data.drop 9).take 1)

lemma local_msgWord : Local msgWord := (local_take 1).preset 9 [0xff]

lemma local_msgDataWord : Local msgDataWord := (local_rotate []).preset 9 [0xff]

lemma msgWord_eq (h : MsgHdr.read data = some (mh, rest)) :
    msgWord data = mh.front ++ [0xff] ++ [mh.csum] := by
  rw [MsgHdr.read_eq_some.1 h]
  rfl

lemma msgDataWord_eq (h : MsgHdr.read data = some (mh, rest)) :
    msgDataWord data = mh.front ++ [0xff] ++ (rest ++ [mh.csum]) := by
  rw [MsgHdr.read_eq_some.1 h]
  rfl

lemma MsgHdr.crc8_word {covered : Bytes} (h : mh.csumOk covered = true) :
    crc8 0xff (mh.front ++ [0xff] ++ (covered ++ [mh.csum])) = 0 := by
  rw [MsgHdr.csumOk, beq_iff_eq] at h
  rw [h, ← List.append_assoc]
  exact crc8_concat_self 0xff _

lemma MsgHdr.eq_of_front (hfront : mh.front = mh'.front) (hcsum : mh.csum = mh'.csum) :
    mh = mh' := by
  have hbytes : ∀ h : MsgHdr, h.bytes = h.front ++ [h.csum] := fun _ => rfl
  have hread := MsgHdr.read_bytes_append mh []
  rw [hbytes, hfront, hcsum, ← hbytes, MsgHdr.read_bytes_append] at hread
  exact (Prod.mk.inj (Option.some.inj hread)).1.symm

/-- **A message header is seen through.** -/
lemma MsgHdr.eq_of_blurred (hread : MsgHdr.read data = some (mh, rest))
    (hread' : MsgHdr.read data' = some (mh', rest')) (hok : mh.csumOk [] = true)
    (hok' : mh'.csumOk [] = true) (h : Blurred data data') : mh = mh' ∧ Blurred rest rest' := by
  have hword := h.map local_msgWord
  rw [msgWord_eq hread, msgWord_eq hread'] at hword
  have heq := crc8_blurred (by simp [MsgHdr.front]) hword
    ((MsgHdr.crc8_word hok).trans (MsgHdr.crc8_word hok').symm)
  obtain ⟨hpreset, hcsum⟩ := List.append_inj heq rfl
  have hrest := h.map (local_drop msgHdrLen)
  rw [MsgHdr.read_eq_some.1 hread, MsgHdr.read_eq_some.1 hread'] at hrest
  exact ⟨MsgHdr.eq_of_front (List.append_inj hpreset rfl).1 (List.cons.inj hcsum).1, hrest⟩

/-- With the data behind it, as far as one byte goes. -/
lemma MsgHdr.eq_of_altered (hread : MsgHdr.read data = some (mh, rest))
    (hread' : MsgHdr.read data' = some (mh', rest')) (hok : mh.csumOk rest = true)
    (hok' : mh'.csumOk rest' = true) (h : Altered R data data') : mh = mh' ∧ rest = rest' := by
  have heq : msgDataWord data = msgDataWord data' := by
    rcases local_msgDataWord R data data' h with heq | halt
    · exact heq
    · refine @crc8_altered 0xff _ _ _ halt ?_
      rw [msgDataWord_eq hread, msgDataWord_eq hread', MsgHdr.crc8_word hok, MsgHdr.crc8_word hok']
  rw [msgDataWord_eq hread, msgDataWord_eq hread'] at heq
  obtain ⟨hpreset, hback⟩ := List.append_inj heq rfl
  obtain ⟨hrest, hcsum⟩ := List.append_inj' hback rfl
  exact ⟨MsgHdr.eq_of_front (List.append_inj hpreset rfl).1 (List.cons.inj hcsum).1, hrest⟩

/-- The word that the checksum of a slice makes zero. -/
def sliceWord (s : Bytes) : Bytes := s.take 34 ++ le16 0xffff ++ s.drop 34

lemma crc16_sliceWord {s : Bytes} (hlen : s.length = sliceLen) (hok : sliceCsumOk s = true) :
    crc16 0xffff (sliceWord s) = 0 := by
  rw [sliceCsumOk, beq_iff_eq, sliceCsum] at hok
  have hcsum : s.drop 34 = le16 (crc16 0xffff (slicePreset s)) := by
    have hsplit := take_append_csum hlen
    conv_lhs => rw [← hsplit]
    rw [List.drop_append_of_le_length, List.drop_eq_nil_of_le, List.nil_append]
    · exact (le16_ofLe16 _ _).symm.trans (congrArg le16 hok)
    · exact List.length_take_le _ _
    · rw [List.length_take, hlen]
      decide
  rw [sliceWord, hcsum]
  exact crc16_concat_self 0xffff (slicePreset s)

/-- **A slice is seen through.** -/
lemma slice_eq_of_blurred {s s' : Bytes} (hlen : s.length = sliceLen) (hlen' : s'.length = sliceLen)
    (hok : sliceCsumOk s = true) (hok' : sliceCsumOk s' = true) (h : Blurred s s') : s = s' := by
  have hid : Local fun xs : Bytes => xs := fun _ _ _ h => .inr h
  have hword : Blurred (sliceWord s) (sliceWord s') := h.map (hid.preset 34 (le16 0xffff))
  have heq := crc16_blurred (by simp [sliceWord, hlen, sliceLen]) hword
    ((crc16_sliceWord hlen hok).trans (crc16_sliceWord hlen' hok').symm)
  have htake : (s.take 34).length = (s'.take 34).length := by
    rw [List.length_take, List.length_take, hlen, hlen']
  obtain ⟨hpreset, hback⟩ := List.append_inj heq (by simp [htake])
  rw [← List.take_append_drop 34 s, ← List.take_append_drop 34 s', hback,
    (List.append_inj hpreset htake).1]

end

/-! ## What is accepted -/

/-- What arrives of the data: the front of it, or all of it, blurred, if it was `clean`. -/
def ComesAs (clean : Prop) (data data' : Bytes) : Prop :=
  data' <+: data ∨ clean ∧ Blurred data data'

/-- What a damaged frame is accepted as: the frame that was sent, apart from the checksum of its
header, and from damage to its data. -/
inductive Echo (clean : Prop) : (sent heard : Accepted) → Prop
  | data (fh : FrmHdr) (c : UInt16) (mh : MsgHdr) {data data' : Bytes}
      (h : ComesAs clean data data') :
    Echo clean (.data fh mh data) (.data { fh with csum := c } mh data')
  | ackReq (fh : FrmHdr) (c : UInt16) (mh : MsgHdr) :
    Echo clean (.ackReq fh mh) (.ackReq { fh with csum := c } mh)
  | patch (fh : FrmHdr) (c : UInt16) (mh : MsgHdr) {data data' : Bytes}
      (h : ComesAs clean data data') :
    Echo clean (.patch fh mh data) (.patch { fh with csum := c } mh data')
  | ackAll (fh : FrmHdr) (c : UInt16) (mh : MsgHdr) :
    Echo clean (.ackAll fh mh) (.ackAll { fh with csum := c } mh)
  | ackPart (fh : FrmHdr) (c : UInt16) (mh : MsgHdr) (req : Bytes) :
    Echo clean (.ackPart fh mh req) (.ackPart { fh with csum := c } mh req)

/-- All slices of a PATCH frame are good: none was lost because the frame did not fit. -/
def Clean (raw : Bytes) : Prop :=
  ∀ fh mh data, accept raw = some (.patch fh mh data) →
    ∀ j < patchSlices mh data, sliceCsumOk (sliceAt data j) = true

/-- What noise does to a frame. -/
inductive Noise (raw raw' : Bytes) : Prop
  | cut (short : raw.length < 65536) (h : raw' <+: raw)
  | byte (clean : Clean raw) (h : OnWire (fun _ _ => True) raw raw')
  | bits (clean : Clean raw) (other : ∀ fh mh req, accept raw ≠ some (.ackPart fh mh req))
    (h : UpTo (OnWire Flipped) 3 raw raw')

section

variable {buf buf' : Bytes} {a a' : Accepted} {clean : Prop}

/-- What is left of a frame under damage that the checksums of the headers are good for; `D` is the
damage behind the frame header. -/
lemma echo_of_acceptBuf {D : Bytes → Bytes → Prop} (h : acceptBuf buf = some a)
    (h' : acceptBuf buf' = some a')
    (hfrm : ∀ {fh fh' data data'}, FrmHdr.read buf = some (fh, data) →
      FrmHdr.read buf' = some (fh', data') → fh.csumOk = true → fh'.csumOk = true →
      (∃ c, fh' = { fh with csum := c }) ∧ D data data')
    (hmsg : ∀ {data data' mh mh' rest rest'}, D data data' → MsgHdr.read data = some (mh, rest) →
      MsgHdr.read data' = some (mh', rest') → mh.csumOk [] = true → mh'.csumOk [] = true →
      mh = mh' ∧ ComesAs clean rest rest')
    (hpart : (∃ fh mh req, a = .ackPart fh mh req) → ∀ {data data' mh mh' rest rest'},
      D data data' → procAckPartCheck data = some (mh, rest) →
      procAckPartCheck data' = some (mh', rest') → mh = mh' ∧ rest = rest') : Echo clean a a' := by
  rw [acceptBuf] at h h'
  cases hread : FrmHdr.read buf with
  | none => simp [hread] at h
  | some r =>
    cases hread' : FrmHdr.read buf' with
    | none => simp [hread'] at h'
    | some r' =>
      obtain ⟨fh, data⟩ := r
      obtain ⟨fh', data'⟩ := r'
      simp only [hread] at h
      simp only [hread'] at h'
      by_cases hok : fh.csumOk = true
      · by_cases hok' : fh'.csumOk = true
        · obtain ⟨⟨c, rfl⟩, hD⟩ := hfrm hread hread' hok hok'
          simp only [hok, hok', Bool.not_true, Bool.false_eq_true, if_false] at h h'
          split_ifs at h h'
          · obtain ⟨⟨mh, rest⟩, hcheck, rfl⟩ := Option.map_eq_some_iff.1 h
            obtain ⟨⟨mh', rest'⟩, hcheck', rfl⟩ := Option.map_eq_some_iff.1 h'
            obtain ⟨hmh, -, hgood⟩ := procDataCheck_eq_some.1 hcheck
            obtain ⟨hmh', -, hgood'⟩ := procDataCheck_eq_some.1 hcheck'
            obtain ⟨rfl, hrest⟩ := hmsg hD hmh hmh' hgood hgood'
            exact .data fh c mh hrest
          · obtain ⟨mh, hcheck, rfl⟩ := Option.map_eq_some_iff.1 h
            obtain ⟨mh', hcheck', rfl⟩ := Option.map_eq_some_iff.1 h'
            obtain ⟨rest, hmh, hgood⟩ := procAckCheck_eq_some.1 hcheck
            obtain ⟨rest', hmh', hgood'⟩ := procAckCheck_eq_some.1 hcheck'
            obtain ⟨rfl, -⟩ := hmsg hD hmh hmh' hgood hgood'
            exact .ackReq fh c mh
          · obtain ⟨⟨mh, rest⟩, hcheck, rfl⟩ := Option.map_eq_some_iff.1 h
            obtain ⟨⟨mh', rest'⟩, hcheck', rfl⟩ := Option.map_eq_some_iff.1 h'
            obtain ⟨hmh, -, hgood⟩ := procPatchCheck_eq_some.1 hcheck
            obtain ⟨hmh', -, hgood'⟩ := procPatchCheck_eq_some.1 hcheck'
            obtain ⟨rfl, hrest⟩ := hmsg hD hmh hmh' hgood hgood'
            exact .patch fh c mh hrest
          · obtain ⟨mh, hcheck, rfl⟩ := Option.map_eq_some_iff.1 h
            obtain ⟨mh', hcheck', rfl⟩ := Option.map_eq_some_iff.1 h'
            obtain ⟨rest, hmh, hgood⟩ := procAckCheck_eq_some.1 hcheck
            obtain ⟨rest', hmh', hgood'⟩ := procAckCheck_eq_some.1 hcheck'
            obtain ⟨rfl, -⟩ := hmsg hD hmh hmh' hgood hgood'
            exact .ackAll fh c mh
          · obtain ⟨⟨mh, rest⟩, hcheck, rfl⟩ := Option.map_eq_some_iff.1 h
            obtain ⟨⟨mh', rest'⟩, hcheck', rfl⟩ := Option.map_eq_some_iff.1 h'
            obtain ⟨rfl, rfl⟩ := hpart ⟨fh, mh, rest, rfl⟩ hD hcheck hcheck'
            exact .ackPart fh c mh rest
        · simp [hok'] at h'
      · simp [hok] at h

/-- Up to three flipped bits, where no ACKP frame was sent. -/
lemma echo_of_blurred (h : acceptBuf buf = some a) (h' : acceptBuf buf' = some a') (hclean : clean)
    (hother : ∀ fh mh req, a ≠ .ackPart fh mh req) (hblur : Blurred buf buf') :
    Echo clean a a' := by
  refine echo_of_acceptBuf (D := Blurred) h h' ?_ ?_ ?_
  · exact fun hread hread' hok hok' =>
      ⟨FrmHdr.eq_of_blurred hread hread' hok hok' hblur, FrmHdr.blurred_data hread hread' hblur⟩
  · intro data data' mh mh' rest rest' hD hread hread' hok hok'
    obtain ⟨hmh, hrest⟩ := MsgHdr.eq_of_blurred hread hread' hok hok' hD
    exact ⟨hmh, .inr ⟨hclean, hrest⟩⟩
  · rintro ⟨fh, mh, req, rfl⟩
    exact absurd rfl (hother fh mh req)

/-- One byte that was replaced. -/
lemma echo_of_altered (h : acceptBuf buf = some a) (h' : acceptBuf buf' = some a') (hclean : clean)
    (halt : Altered (fun _ _ => True) buf buf') : Echo clean a a' := by
  have hblurred : ∀ {xs ys : Bytes}, xs = ys ∨ Altered (fun _ _ => True) xs ys → Blurred xs ys := by
    rintro xs ys (rfl | halt)
    · exact .inl (.refl 3 xs)
    · exact .inr halt
  refine echo_of_acceptBuf (D := fun xs ys => xs = ys ∨ Altered (fun _ _ => True) xs ys) h h'
    ?_ ?_ ?_
  · intro fh fh' data data' hread hread' hok hok'
    refine ⟨FrmHdr.eq_of_blurred hread hread' hok hok' (.inr halt), ?_⟩
    have hrest := local_drop frmHdrLen _ _ _ halt
    rw [FrmHdr.read_eq_some.1 hread, FrmHdr.read_eq_some.1 hread'] at hrest
    exact hrest
  · intro data data' mh mh' rest rest' hD hread hread' hok hok'
    obtain ⟨hmh, hrest⟩ := MsgHdr.eq_of_blurred hread hread' hok hok' (hblurred hD)
    exact ⟨hmh, .inr ⟨hclean, hrest⟩⟩
  · intro _ data data' mh mh' rest rest' hD hcheck hcheck'
    rcases hD with rfl | hD
    · exact Prod.mk.inj (Option.some.inj (hcheck.symm.trans hcheck'))
    · obtain ⟨hread, -, -, hok⟩ := procAckPartCheck_eq_some.1 hcheck
      obtain ⟨hread', -, -, hok'⟩ := procAckPartCheck_eq_some.1 hcheck'
      exact MsgHdr.eq_of_altered hread hread' hok hok' hD

/-- A frame that was cut. -/
lemma echo_of_prefix (h : acceptBuf buf = some a) (h' : acceptBuf buf' = some a')
    (hcut : buf' <+: buf) : Echo clean a a' := by
  have hmsg : ∀ {data data' : Bytes} {mh mh' : MsgHdr} {rest rest' : Bytes}, data' <+: data →
      MsgHdr.read data = some (mh, rest) → MsgHdr.read data' = some (mh', rest') →
      mh = mh' ∧ rest' <+: rest := by
    rintro data data' mh mh' rest rest' ⟨post, rfl⟩ hread hread'
    rw [MsgHdr.read_eq_some.1 hread', List.append_assoc, MsgHdr.read_bytes_append] at hread
    obtain ⟨rfl, rfl⟩ := Prod.mk.inj (Option.some.inj hread)
    exact ⟨rfl, List.prefix_append _ _⟩
  refine echo_of_acceptBuf (D := fun xs ys => ys <+: xs) h h' ?_ ?_ ?_
  · intro fh fh' data data' hread hread' _ _
    obtain ⟨post, rfl⟩ := hcut
    rw [FrmHdr.read_eq_some.1 hread', List.append_assoc, FrmHdr.read_bytes_append] at hread
    obtain ⟨rfl, rfl⟩ := Prod.mk.inj (Option.some.inj hread)
    exact ⟨⟨fh'.csum, rfl⟩, List.prefix_append _ _⟩
  · intro data data' mh mh' rest rest' hD hread hread' _ _
    obtain ⟨hmh, hrest⟩ := hmsg hD hread hread'
    exact ⟨hmh, .inl hrest⟩
  · intro _ data data' mh mh' rest rest' hD hcheck hcheck'
    obtain ⟨hread, -, hlen, -⟩ := procAckPartCheck_eq_some.1 hcheck
    obtain ⟨hread', -, hlen', -⟩ := procAckPartCheck_eq_some.1 hcheck'
    obtain ⟨rfl, hrest⟩ := hmsg hD hread hread'
    exact ⟨rfl, (hrest.eq_of_length (hlen'.symm.trans hlen)).symm⟩

/-- A byte of a frame is set to another one. -/
lemma onWire_set {R : UInt8 → UInt8 → Prop} {raw : Bytes} {i : ℕ} {a b : UInt8}
    (hget : raw[i]? = some a) (hR : R a b) (ha : Ordinary a) (hb : Ordinary b)
    (hpre : ¬ [escapeChar] <:+ raw.take i) : OnWire R raw (raw.set i b) := by
  obtain ⟨hi, rfl⟩ := List.getElem?_eq_some_iff.1 hget
  refine ⟨raw.take i, raw[i], b, raw.drop (i + 1), ?_, List.set_eq_take_append_cons_drop.trans
    (if_pos hi), hR, ha, hb, hpre⟩
  rw [List.getElem_cons_drop, List.take_append_drop]

/-- **What gets through.**  Whatever noise does to a frame that would be accepted: what is accepted
in its place has the same headers, apart from the checksum of the frame header, and its data is the
front of the data that was sent, or that data blurred; of an ACKP frame it is the same. -/
lemma accept_noise {raw raw' : Bytes} (h : Noise raw raw') (ha : accept raw = some a)
    (ha' : accept raw' = some a') : Echo (Clean raw) a a' := by
  cases h with
  | cut hshort hcut => exact echo_of_prefix ha ha' (recvBuf_ofPrefix hshort hcut)
  | byte hclean hwire =>
    rcases recvBuf_onWire hwire with heq | halt
    · rw [accept, heq] at ha
      exact echo_of_prefix ha ha' List.prefix_rfl
    · exact echo_of_altered ha ha' hclean halt
  | bits hclean hother hwire =>
    refine echo_of_blurred ha ha' hclean (fun fh mh req heq => hother fh mh req (heq ▸ ha))
      (.inl ?_)
    exact hwire.map fun _ _ h => recvBuf_onWire h

/-- Where the data is the same, an echo does what the frame does. -/
lemma Echo.act_eq (h : Echo clean a a') (hsame : a'.payload = a.payload) (now : ℤ) (stack : Stack)
    (s : Split) : s.act now stack a' = s.act now stack a := by
  cases h with
  | data fh c mh h =>
    obtain rfl := hsame
    rfl
  | ackReq fh c mh => rfl
  | patch fh c mh h =>
    obtain rfl := hsame
    rfl
  | ackAll fh c mh => rfl
  | ackPart fh c mh req => rfl

/-- A frame for which no data comes does what was sent, or nothing. -/
lemma lowerPut_noise {raw raw' : Bytes} (h : Noise raw raw') (ha : accept raw = some a)
    (hsame : ∀ a', Echo (Clean raw) a a' → a'.payload = a.payload) :
    accept raw' = none ∨ ∀ (now : ℤ) (stack : Stack) (s : Split),
      (lowerPut now stack raw' s).1 = (lowerPut now stack raw s).1 := by
  cases ha' : accept raw' with
  | none => exact .inl rfl
  | some a' =>
    right
    intro now stack s
    have hecho := accept_noise h ha ha'
    rw [lowerPut_eq, lowerPut_eq, ha, ha']
    exact hecho.act_eq (hsame a' hecho) now stack s

end

/-! ## The slices of a damaged frame -/

section

variable {data data' : Bytes} {p : Packet} {mh : MsgHdr}

lemma sliceAt_ofPrefix (h : data' <+: data) {j : ℕ} (hj : sliceLen * (j + 1) ≤ data'.length) :
    sliceAt data' j = sliceAt data j := by
  obtain ⟨post, rfl⟩ := h
  have htake := sliceAt_take (data' ++ post) hj
  rw [List.take_left] at htake
  exact htake

lemma lt_patchSlices_iff {j : ℕ} :
    j < patchSlices mh data ↔ j < mh.len.toNat ∧ sliceLen * (j + 1) ≤ data.length := by
  have hdiv : j < data.length / sliceLen ↔ sliceLen * (j + 1) ≤ data.length := by
    rw [Nat.mul_comm]
    exact Nat.le_div_iff_mul_le (by decide)
  rw [← hdiv]
  unfold patchSlices
  split_ifs with hlt
  · omega
  · omega

/-- The slices that come out of the front of the data are slices of the packet. -/
lemma sliceFrom_ofPrefix (h : data' <+: data)
    (hslices : ∀ j < patchSlices mh data, SliceFrom p (sliceAt data j)) {j : ℕ}
    (hj : j < patchSlices mh data') : SliceFrom p (sliceAt data' j) := by
  obtain ⟨hlt, hwhole⟩ := lt_patchSlices_iff.1 hj
  rw [sliceAt_ofPrefix h hwhole]
  exact hslices j (lt_patchSlices_iff.2 ⟨hlt, hwhole.trans h.length_le⟩)

/-- And so are those that come out of blurred data, where all were good. -/
lemma sliceFrom_blurred (h : Blurred data data')
    (hclean : ∀ j < patchSlices mh data, sliceCsumOk (sliceAt data j) = true)
    (hslices : ∀ j < patchSlices mh data, SliceFrom p (sliceAt data j)) {j : ℕ}
    (hj : j < patchSlices mh data') : SliceFrom p (sliceAt data' j) := by
  by_cases hok : sliceCsumOk (sliceAt data' j) = true
  · have hlen := h.length_eq
    have hj' : j < patchSlices mh data := by
      rw [patchSlices, hlen]
      exact hj
    have hwhole : ∀ xs : Bytes, sliceLen * (j + 1) ≤ xs.length →
        (sliceAt xs j).length = sliceLen := by
      intro xs hxs
      rw [sliceAt, List.length_take, List.length_drop, Nat.mul_succ] at *
      omega
    have hslice : Blurred (sliceAt data j) (sliceAt data' j) :=
      h.map ((local_take sliceLen).comp (local_drop (sliceLen * j)))
    rw [← slice_eq_of_blurred (hwhole _ (lt_patchSlices_iff.1 hj').2)
      (hwhole _ (lt_patchSlices_iff.1 hj).2) (hclean j hj') hok hslice]
    exact hslices j hj'
  · left
    rw [← Bool.not_eq_true]
    exact hok

end

end Ipcf
