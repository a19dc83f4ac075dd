import Ipcf.Crc
import Ipcf.Framework.Buffer
import Ipcf.Framework.Endian
import Ipcf.Framework.Stuffing
import Mathlib.Tactic.Ring

/-!
# Frames of the link layer

The constants and headers of `include/split.h`, the escaping codec `en_frame`/`de_frame` of
`split.c` and the three checksums it uses.

A frame before escaping is a frame header (8 bytes), a message header (10 bytes) and the data of
the message.  Headers are records with a byte image (`FrmHdr.bytes`, `MsgHdr.bytes`); reading one
from the front of a buffer fails exactly when the buffer is too short, which is the length check
the handlers make.

The codec instantiates the stuffing library at the four characters of the source (`slip`):
`enFrame_eq` says when `en_frame` succeeds and what it leaves behind when it runs out of room,
`deFrame_buf` what `de_frame` recovers from any input.  Everything the rest of the development
knows about escaping goes through these two.
-/

namespace Ipcf

/-! ## Constants -/

def linkMtu : ℕ := 1000
def sliceDataLen : ℕ := 32
def idleTimeout : ℤ := 10 * 1000
def ackTimeout : ℤ := 3 * 1000
def maxRetryTimes : ℕ := 5

/-- `sizeof(frm_hdr_t)` -/
def frmHdrLen : ℕ := 8
/-- `sizeof(msg_hdr_t)` -/
def msgHdrLen : ℕ := 10
/-- `sizeof(slice_t)` -/
def sliceLen : ℕ := 36
def frmMsgHdrLen : ℕ := frmHdrLen + msgHdrLen
def linkDataMax : ℕ := linkMtu - frmMsgHdrLen
def maxSliceNum : ℕ := (linkMtu - frmMsgHdrLen) / sliceLen
def bitmap32Size : ℕ := (maxSliceNum + 31) / 32

def breakChar : UInt8 := 0xc0
def escapeChar : UInt8 := 0xdb
def escapeBreak : UInt8 := 0xdc
def escapeEscape : UInt8 := 0xdb
def sliceSeperator : UInt8 := 0x7e

def frameTypeData : UInt8 := 1
def frameTypeAcka : UInt8 := 2
def frameTypeAckr : UInt8 := 3
def frameTypeAckp : UInt8 := 4
def frameTypePatch : UInt8 := 5

lemma maxSliceNum_eq : maxSliceNum = 27 := rfl

lemma bitmap32Size_eq : bitmap32Size = 1 := rfl

/-! ## The escaping codec -/

/-- What `en_frame` returns, what it stores in `*data_len`, and the bytes it has written. -/
structure EnFrame where
  ret : ℤ
  dataLen : ℕ
  frm : Bytes
  deriving DecidableEq, Repr

/-- The result of the rest of the loop after `out` has been written. -/
def EnFrame.push (out : Bytes) (r : EnFrame) : EnFrame := { r with frm := out ++ r.frm }

/-- The loop of `en_frame`: `ch` bytes of the data are consumed and `p` bytes written. -/
def enFrameLoop (size : ℕ) : (data : Bytes) → (ch p : ℕ) → EnFrame
  | [], ch, p => if p + 1 > size then ⟨-1, ch, []⟩ else ⟨p + 1, ch, [breakChar]⟩
  | c :: data, ch, p =>
    if c = breakChar then
      if p + 2 > size then ⟨-1, ch, []⟩
      else (enFrameLoop size data (ch + 1) (p + 2)).push [escapeChar, escapeBreak]
    else if c = escapeChar then
      if p + 2 > size then ⟨-1, ch, []⟩
      else (enFrameLoop size data (ch + 1) (p + 2)).push [escapeChar, escapeEscape]
    else
      if p + 1 > size then ⟨-1, ch, []⟩
      else (enFrameLoop size data (ch + 1) (p + 1)).push [c]

def enFrame (data : Bytes) (size : ℕ) : EnFrame :=
  if size < 1 then ⟨-1, 0, []⟩ else (enFrameLoop size data 0 1).push [breakChar]

/-- What `de_frame` returns and the bytes it has stored (`*len` is their number). -/
structure DeFrame where
  ret : ℤ
  buf : Bytes
  deriving DecidableEq, Repr

def DeFrame.push (c : UInt8) (r : DeFrame) : DeFrame := { r with buf := c :: r.buf }

/-- The loop of `de_frame`: `start` is `find_start_break`, and `p` bytes are stored. -/
def deFrameLoop (len : ℕ) : (start : Bool) → (frm : Bytes) → (p : ℕ) → DeFrame
  | _, [], _ => ⟨-1, []⟩
  | false, c :: frm, p =>
    if c = breakChar then deFrameLoop len true frm p else deFrameLoop len false frm p
  | true, c :: frm, p =>
    if c = breakChar then ⟨0, []⟩
    else if c = escapeChar then
      match frm with
      | [] => ⟨-2, []⟩
      | e :: frm =>
        if e = escapeBreak then
          if p + 1 > len then ⟨-1, []⟩ else (deFrameLoop len true frm (p + 1)).push breakChar
        else if e = escapeEscape then
          if p + 1 > len then ⟨-1, []⟩ else (deFrameLoop len true frm (p + 1)).push escapeChar
        else ⟨-3, []⟩
    else
      if p + 1 > len then ⟨-1, []⟩ else (deFrameLoop len true frm (p + 1)).push c

def deFrame (frm : Bytes) (len : ℕ) : DeFrame := deFrameLoop len false frm 0

/-! ### The codec as an instance of byte stuffing -/

lemma escapeChar_ne_breakChar : escapeChar ≠ breakChar := by decide

lemma escapeEscape_ne_escapeBreak : escapeEscape ≠ escapeBreak := by decide

/-- The stuffing code of the source. -/
def slip : Stuffing UInt8 where
  delim := breakChar
  esc := escapeChar
  escDelim := escapeBreak
  escEsc := escapeEscape
  esc_ne_delim := escapeChar_ne_breakChar
  escDelim_ne_delim := by decide
  escEsc_ne_delim := by decide
  escEsc_ne_escDelim := escapeEscape_ne_escapeBreak

@[simp] lemma slip_delim : slip.delim = breakChar := rfl

@[simp] lemma slip_esc : slip.esc = escapeChar := rfl

@[simp] lemma slip_escDelim : slip.escDelim = escapeBreak := rfl

@[simp] lemma slip_escEsc : slip.escEsc = escapeEscape := rfl

/-- The number of bytes a complete frame around `data` takes. -/
def escapedLen (data : Bytes) : ℕ := 2 + (slip.stuff data).length

/-- The complete frame around `data`. -/
def framed (data : Bytes) : Bytes := breakChar :: slip.stuff data ++ [breakChar]

lemma length_framed (data : Bytes) : (framed data).length = escapedLen data := by
  simp only [framed, escapedLen, List.length_append, List.length_cons, List.length_nil]
  omega

lemma escapedLen_le (data : Bytes) : escapedLen data ≤ 2 + 2 * data.length := by
  have := slip.length_stuff_le data
  unfold escapedLen
  omega

lemma length_lt_escapedLen (data : Bytes) : data.length + 2 ≤ escapedLen data := by
  have := slip.length_le_length_stuff data
  unfold escapedLen
  omega

/-- One iteration of the loop writes the transparent form of one byte, if it fits. -/
lemma enFrameLoop_cons (size : ℕ) (c : UInt8) (data : Bytes) (ch p : ℕ) :
    enFrameLoop size (c :: data) ch p =
      if p + (slip.stuff1 c).length > size then ⟨-1, ch, []⟩
      else (enFrameLoop size data (ch + 1) (p + (slip.stuff1 c).length)).push (slip.stuff1 c) := by
  rw [enFrameLoop, Stuffing.stuff1]
  by_cases hb : c = breakChar
  · simp [hb]
  · by_cases he : c = escapeChar
    · simp [he, escapeChar_ne_breakChar]
    · simp [hb, he]

lemma enFrameLoop_eq (size : ℕ) (data : Bytes) (ch p : ℕ) (hp : p ≤ size) :
    enFrameLoop size data ch p =
      if p + (slip.stuff data).length + 1 ≤ size then
        ⟨p + (slip.stuff data).length + 1, ch + data.length, slip.stuff data ++ [breakChar]⟩
      else
        ⟨-1, ch + slip.fit (size - p) data, slip.stuff (data.take (slip.fit (size - p) data))⟩ := by
  induction data generalizing ch p with
  | nil =>
    by_cases h : p + 1 ≤ size
    · simp [enFrameLoop, h, Nat.not_lt.2 h]
    · simp [enFrameLoop, h, Nat.lt_of_not_le h, Stuffing.fit]
  | cons c data ih =>
    rw [enFrameLoop_cons]
    by_cases hc : p + (slip.stuff1 c).length ≤ size
    · have hfit : slip.fit (size - p) (c :: data) =
          slip.fit (size - (p + (slip.stuff1 c).length)) data + 1 := by
        rw [Stuffing.fit, if_pos (by omega), Nat.sub_sub]
      rw [if_neg (by omega), ih _ _ hc, hfit, slip.stuff_cons, List.length_append,
        List.length_cons, List.take_succ_cons, slip.stuff_cons]
      by_cases hall : p + (slip.stuff1 c).length + (slip.stuff data).length + 1 ≤ size
      · rw [if_pos hall, if_pos (by omega)]
        simp only [EnFrame.push, List.append_assoc, EnFrame.mk.injEq, and_true]
        constructor
        · push_cast
          ring
        · omega
      · rw [if_neg hall, if_neg (by omega)]
        simp only [EnFrame.push, EnFrame.mk.injEq, and_true, true_and]
        omega
    · have hlen := slip.stuff_cons c data
      rw [if_pos (by omega), if_neg (by rw [hlen, List.length_append]; omega), Stuffing.fit,
        if_neg (by omega)]
      simp

/-- **The writer.** With room for the complete frame `en_frame` writes it and returns its length;
without, it returns `-1`, stores how many bytes of the data it got through, and leaves their
transparent form behind the opening break. -/
lemma enFrame_eq (data : Bytes) {size : ℕ} (h : 1 ≤ size) :
    enFrame data size =
      if escapedLen data ≤ size then ⟨escapedLen data, data.length, framed data⟩
      else ⟨-1, slip.fit (size - 1) data,
        breakChar :: slip.stuff (data.take (slip.fit (size - 1) data))⟩ := by
  rw [enFrame, if_neg (by omega), enFrameLoop_eq _ _ _ _ h]
  by_cases hfit : escapedLen data ≤ size
  · rw [if_pos (by unfold escapedLen at hfit; omega), if_pos hfit]
    simp only [EnFrame.push, escapedLen, framed, EnFrame.mk.injEq]
    refine ⟨by push_cast; ring, by omega, rfl⟩
  · rw [if_neg (by unfold escapedLen at hfit; omega), if_neg hfit]
    simp [EnFrame.push]

/-- The value `de_frame` returns when the reader stops for the given reason. -/
def stopCode : Stuffing.Stop → ℤ
  | .closed => 0
  | .cut => -1
  | .dangling => -2
  | .unknown => -3

/-- Behind the opening break `de_frame` is the stuffing reader, except that it gives up as soon
as a byte has no room. -/
lemma deFrameLoop_true (len : ℕ) (frm : Bytes) (p : ℕ) (hp : p ≤ len) :
    deFrameLoop len true frm p =
      ⟨if (slip.unstuff frm).1.length ≤ len - p then stopCode (slip.unstuff frm).2 else -1,
        (slip.unstuff frm).1.take (len - p)⟩ := by
  -- an escape pair consumes two bytes at once, so the induction is on the length
  induction hn : frm.length using Nat.strong_induction_on generalizing frm p with
  | _ n ih =>
    have store : ∀ (c : UInt8) (rest : Bytes), rest.length < n →
        (if p + 1 > len then (⟨-1, []⟩ : DeFrame)
          else (deFrameLoop len true rest (p + 1)).push c) =
        ⟨if (c :: (slip.unstuff rest).1).length ≤ len - p then stopCode (slip.unstuff rest).2
            else -1, (c :: (slip.unstuff rest).1).take (len - p)⟩ := by
      intro c rest hrest
      by_cases hfull : p + 1 > len
      · rw [if_pos hfull, show len - p = 0 by omega, List.take_zero]
        simp
      · rw [if_neg hfull, show len - p = (len - (p + 1)) + 1 by omega, List.take_succ_cons,
          ih _ hrest rest (p + 1) (by omega) rfl]
        simp [DeFrame.push]
    rw [deFrameLoop.eq_def, Stuffing.unstuff.eq_def slip]
    cases frm with
    | nil => simp [stopCode]
    | cons c frm =>
      by_cases hb : c = breakChar
      · simp [hb, stopCode]
      · by_cases he : c = escapeChar
        · cases frm with
          | nil => simp [he, escapeChar_ne_breakChar, stopCode]
          | cons e frm =>
            have hlt : frm.length < n := by
              rw [← hn]
              simp only [List.length_cons]
              omega
            by_cases heb : e = escapeBreak
            · simpa [he, heb, escapeChar_ne_breakChar] using store breakChar frm hlt
            · by_cases hee : e = escapeEscape
              · simpa [he, hee, escapeChar_ne_breakChar, escapeEscape_ne_escapeBreak]
                  using store escapeChar frm hlt
              · simp [he, heb, hee, escapeChar_ne_breakChar, stopCode]
        · simpa [hb, he] using store c frm (by rw [← hn]; simp)

/-- **The reader.** Behind the first break of its input `de_frame` recovers what the stuffing
reader recovers, as far as the buffer takes it; what it returns says only why it stopped. -/
lemma deFrame_break (frm : Bytes) (len : ℕ) :
    deFrame (breakChar :: frm) len =
      ⟨if (slip.unstuff frm).1.length ≤ len then stopCode (slip.unstuff frm).2 else -1,
        (slip.unstuff frm).1.take len⟩ := by
  rw [deFrame, deFrameLoop, if_pos rfl, deFrameLoop_true len frm 0 (Nat.zero_le _), Nat.sub_zero]

/-- A complete frame whose data fits into the buffer is read back whole and with success. -/
lemma deFrame_framed (data : Bytes) {len : ℕ} (h : data.length ≤ len) :
    deFrame (framed data) len = ⟨0, data⟩ := by
  have hread : slip.unstuff (slip.stuff data ++ [breakChar]) = (data, .closed) :=
    slip.unstuff_closed data []
  rw [framed, List.cons_append, deFrame_break, hread]
  simp [h, stopCode, List.take_of_length_le h]

section

variable {data : Bytes} (h : ¬ escapedLen data ≤ linkMtu)

include h

/-- The bytes that were escaped are half of the room at least. -/
lemma half_room_le_fit : 499 ≤ slip.fit (linkMtu - 1) data := by
  have hlong := escapedLen_le data
  have hdouble := slip.length_stuff_le (data.take 499)
  rw [List.length_take] at hdouble
  rw [slip.le_fit_iff _ _ (by unfold linkMtu at h; omega)]
  unfold linkMtu
  omega

/-- Behind the bytes that were escaped the receiver reads what stood in the buffer before. -/
lemma buf_deFrame_overrun (b : Buffer UInt8 linkMtu) {k : ℕ}
    (hk : k = slip.fit (linkMtu - 1) data) :
    (deFrame (b.write 0 (enFrame data linkMtu).frm).cells linkMtu).buf =
      (data.take k ++ (slip.unstuff
        (b.cells.drop ((slip.stuff (data.take k)).length + 1))).1).take linkMtu := by
  have hroom : (slip.stuff (data.take k)).length ≤ linkMtu - 1 :=
    hk ▸ slip.length_stuff_take_fit _ _
  rw [enFrame_eq data (by decide), if_neg h, ← hk]
  have hcells : (b.write 0 (breakChar :: slip.stuff (data.take k))).cells =
      breakChar :: (slip.stuff (data.take k) ++
        b.cells.drop ((slip.stuff (data.take k)).length + 1)) := by
    simp only [Buffer.write, List.take_zero, List.nil_append, Nat.sub_zero, Nat.zero_add,
      List.length_cons]
    rw [List.take_of_length_le (by simp only [List.length_cons, linkMtu] at *; omega),
      List.cons_append]
  rw [hcells, deFrame_break, slip.unstuff_stuff_append]

end

/-- What becomes of a frame that `en_frame` could not complete and that is sent nevertheless:
the receiver recovers the bytes that were escaped, which are half of the room at least, and
behind them at most one byte of garbage, which then stands in the place of a reserved byte and
differs from it. -/
lemma deFrame_overrun (data : Bytes) (b : Buffer UInt8 linkMtu)
    (h : ¬ escapedLen data ≤ linkMtu) :
    ∃ k ≤ data.length, 499 ≤ k ∧
      (escapedLen data = linkMtu + 1 ↔ k = data.length) ∧
      ((deFrame (b.write 0 (enFrame data linkMtu).frm).cells linkMtu).buf = data.take k ∨
        ∃ (hk : k < data.length) (x : UInt8), x ≠ data[k] ∧
          (deFrame (b.write 0 (enFrame data linkMtu).frm).cells linkMtu).buf =
            data.take k ++ [x]) := by
  set k := slip.fit (linkMtu - 1) data with hk
  have hkle : k ≤ data.length := slip.fit_le_length _ _
  have hroom : (slip.stuff (data.take k)).length ≤ linkMtu - 1 := slip.length_stuff_take_fit _ _
  have hshort := slip.length_le_length_stuff (data.take k)
  rw [List.length_take, Nat.min_eq_left hkle] at hshort
  refine ⟨k, hkle, half_room_le_fit h, ?_, ?_⟩
  · rw [hk, slip.fit_eq_length_iff]
    unfold escapedLen linkMtu at *
    omega
  · set tail := b.cells.drop ((slip.stuff (data.take k)).length + 1) with htail
    have htlen : tail.length = linkMtu - ((slip.stuff (data.take k)).length + 1) := by
      rw [htail, List.length_drop, b.size_eq]
    rw [buf_deFrame_overrun h b hk, ← htail]
    by_cases hall : k < data.length
    · have hgap : linkMtu - 1 <
          (slip.stuff (data.take k)).length + (slip.stuff1 data[k]).length := slip.fit_gap hall
      have hwidth := slip.length_stuff1_le data[k]
      rcases tail with _ | ⟨x, _ | ⟨y, rest⟩⟩
      · left
        rw [slip.unstuff_nil, List.append_nil, List.take_of_length_le]
        simp only [List.length_take, linkMtu] at *
        omega
      · have hres : data[k] = breakChar ∨ data[k] = escapeChar := by
          apply (slip.length_stuff1_eq_two_iff data[k]).1
          simp only [List.length_singleton, linkMtu] at *
          omega
        have hle : (data.take k).length + 1 ≤ linkMtu := by
          simp only [List.length_take, linkMtu] at *
          omega
        rcases slip.unstuff_singleton x with hx | ⟨hx, hxb, hxe⟩
        · left
          rw [hx, List.append_nil, List.take_of_length_le (by omega)]
        · right
          refine ⟨hall, x, ?_, ?_⟩
          · rintro rfl
            exact hres.elim hxb hxe
          · rw [hx, List.take_of_length_le (by simpa using hle)]
      · exfalso
        simp only [List.length_cons, linkMtu] at *
        omega
    · left
      have hkeq : k = data.length := by omega
      have hnil : tail = [] := by
        apply List.eq_nil_of_length_eq_zero
        rw [htlen]
        rw [hkeq, List.take_length] at *
        unfold escapedLen linkMtu at *
        omega
      rw [hnil, slip.unstuff_nil, List.append_nil, List.take_of_length_le]
      simp only [List.length_take, linkMtu] at *
      omega

/-! ## Checksums -/

def csum8 (d : Bytes) : UInt8 := crc8 0xff d

def csum16 (d : Bytes) : UInt16 := crc16 0xffff d

def csum32 (d : Bytes) : UInt32 := crc32c d

/-! ## Headers -/

/-- `frm_hdr_t` -/
structure FrmHdr where
  src : UInt8
  dst : UInt8
  type : UInt8
  reserved : UInt8
  len : UInt16
  csum : UInt16
  deriving DecidableEq, Repr

/-- `msg_hdr_t` -/
structure MsgHdr where
  dCsum : UInt32
  len : UInt16
  len2 : UInt16
  seq : UInt8
  csum : UInt8
  deriving DecidableEq, Repr

def FrmHdr.bytes (h : FrmHdr) : Bytes :=
  [h.src, h.dst, h.type, h.reserved] ++ le16 h.len ++ le16 h.csum

def MsgHdr.bytes (h : MsgHdr) : Bytes :=
  le32 h.dCsum ++ le16 h.len ++ le16 h.len2 ++ [h.seq, h.csum]

/-- The frame header at the front of a buffer and what follows it; `none` when the buffer is
shorter than a frame header. -/
def FrmHdr.read : Bytes → Option (FrmHdr × Bytes)
  | src :: dst :: type :: reserved :: l0 :: l1 :: c0 :: c1 :: data =>
    some (⟨src, dst, type, reserved, ofLe16 l0 l1, ofLe16 c0 c1⟩, data)
  | _ => none

/-- The message header at the front of a buffer and what follows it; `none` when the buffer is
shorter than a message header. -/
def MsgHdr.read : Bytes → Option (MsgHdr × Bytes)
  | d0 :: d1 :: d2 :: d3 :: l0 :: l1 :: k0 :: k1 :: seq :: csum :: data =>
    some (⟨ofLe32 d0 d1 d2 d3, ofLe16 l0 l1, ofLe16 k0 k1, seq, csum⟩, data)
  | _ => none

@[simp] lemma FrmHdr.length_bytes (h : FrmHdr) : h.bytes.length = frmHdrLen := rfl

@[simp] lemma MsgHdr.length_bytes (h : MsgHdr) : h.bytes.length = msgHdrLen := rfl

@[simp] lemma FrmHdr.read_bytes_append (h : FrmHdr) (data : Bytes) :
    FrmHdr.read (h.bytes ++ data) = some (h, data) := by
  simp [FrmHdr.read, FrmHdr.bytes, le16]

@[simp] lemma MsgHdr.read_bytes_append (h : MsgHdr) (data : Bytes) :
    MsgHdr.read (h.bytes ++ data) = some (h, data) := by
  simp [MsgHdr.read, MsgHdr.bytes, le16, le32]

/-- `fh->csum = 0xff; fh->csum = csum8(fh, sizeof *fh);` -/
def FrmHdr.seal (h : FrmHdr) : FrmHdr :=
  { h with csum := (csum8 ({ h with csum := 0xff } : FrmHdr).bytes).toUInt16 }

/-- `lower_put`'s check: the checksum, cut to 8 bits, is that of the header with `0xff` in the
place of the checksum. -/
def FrmHdr.csumOk (h : FrmHdr) : Bool :=
  h.csum.toUInt8 == csum8 ({ h with csum := 0xff } : FrmHdr).bytes

/-- `mh->csum = 0xff; mh->csum = csum8(mh, sizeof *mh + n);` where `data` are the `n` bytes
behind the header. -/
def MsgHdr.seal (h : MsgHdr) (data : Bytes) : MsgHdr :=
  { h with csum := csum8 (({ h with csum := 0xff } : MsgHdr).bytes ++ data) }

/-- The check of the message header's checksum over the header and `data` behind it. -/
def MsgHdr.csumOk (h : MsgHdr) (data : Bytes) : Bool :=
  h.csum == csum8 (({ h with csum := 0xff } : MsgHdr).bytes ++ data)

@[simp] lemma FrmHdr.csumOk_seal (h : FrmHdr) : h.seal.csumOk = true := by
  simp [FrmHdr.csumOk, FrmHdr.seal]

@[simp] lemma MsgHdr.csumOk_seal (h : MsgHdr) (data : Bytes) :
    (h.seal data).csumOk data = true := by
  simp [MsgHdr.csumOk, MsgHdr.seal]

/-! ## Building a frame

Every builder fills the same fields in; the checksum of the message header covers, besides the
header, the data of an acknowledgement and nothing in the other types. -/

/-- The sealed frame header of a frame of `len` bytes. -/
def frmHdr (src dst type reserved : UInt8) (len : ℕ) : FrmHdr :=
  FrmHdr.seal {
    src := src
    dst := dst
    type := type
    reserved := reserved
    len := UInt16.ofNat len
    csum := 0xff }

/-- The message header with both copies of the length, sealed over itself and `covered`. -/
def msgHdr (dCsum : UInt32) (len : ℕ) (seq : UInt8) (covered : Bytes) : MsgHdr :=
  MsgHdr.seal {
    dCsum := dCsum
    len := UInt16.ofNat len
    len2 := UInt16.ofNat len
    seq := seq
    csum := 0xff } covered

@[simp] lemma frmHdr_src (src dst type reserved : UInt8) (len : ℕ) :
    (frmHdr src dst type reserved len).src = src := rfl

@[simp] lemma frmHdr_dst (src dst type reserved : UInt8) (len : ℕ) :
    (frmHdr src dst type reserved len).dst = dst := rfl

@[simp] lemma frmHdr_type (src dst type reserved : UInt8) (len : ℕ) :
    (frmHdr src dst type reserved len).type = type := rfl

@[simp] lemma msgHdr_seq (dCsum : UInt32) (len : ℕ) (seq : UInt8) (covered : Bytes) :
    (msgHdr dCsum len seq covered).seq = seq := rfl

@[simp] lemma msgHdr_dCsum (dCsum : UInt32) (len : ℕ) (seq : UInt8) (covered : Bytes) :
    (msgHdr dCsum len seq covered).dCsum = dCsum := rfl

@[simp] lemma msgHdr_len (dCsum : UInt32) (len : ℕ) (seq : UInt8) (covered : Bytes) :
    (msgHdr dCsum len seq covered).len = UInt16.ofNat len := rfl

@[simp] lemma msgHdr_len2 (dCsum : UInt32) (len : ℕ) (seq : UInt8) (covered : Bytes) :
    (msgHdr dCsum len seq covered).len2 = UInt16.ofNat len := rfl

@[simp] lemma csumOk_frmHdr (src dst type reserved : UInt8) (len : ℕ) :
    (frmHdr src dst type reserved len).csumOk = true := FrmHdr.csumOk_seal _

@[simp] lemma csumOk_msgHdr (dCsum : UInt32) (len : ℕ) (seq : UInt8) (covered : Bytes) :
    (msgHdr dCsum len seq covered).csumOk covered = true := MsgHdr.csumOk_seal _ _

/-- The frame of `send_ack` and `send_ack_req` before escaping. -/
def ackFrame (dst src type reserved seq : UInt8) (data : Bytes) : Bytes :=
  (frmHdr src dst type reserved (frmMsgHdrLen + data.length)).bytes ++
    (msgHdr 0xffffffff data.length seq data).bytes ++ data

/-! ## Queueing an escaped frame -/

/-- The local arrays of a function that builds a frame (`buf` or `tmp`, and `escaped`) as the
call finds them: nothing in them is initialised. -/
structure Stack where
  buf : Buffer UInt8 linkMtu
  escaped : Buffer UInt8 linkMtu

instance : Inhabited Stack := ⟨⟨Buffer.fill _ 0, Buffer.fill _ 0⟩⟩

/-- The data of a `data_node_t` made from the first `len` bytes of `buf`: cut to the size of the
node. -/
def dataNode (buf : Bytes) (len : ℕ) : Bytes := buf.take (if len ≤ linkMtu then len else linkMtu)

/-- The end of `send_ack`, `send_patch` and `send_ack_req`: escape `data` into the local array
`escaped`, of which nothing was initialised before, and queue the result.  `esc_len` is unsigned,
so the test for a negative length is on a number that never is one. -/
def putEscaped (escaped : Buffer UInt8 linkMtu) (data : Bytes) : List Bytes :=
  let r := enFrame data linkMtu
  let escLen := UInt16.ofInt r.ret
  if (escLen.toNat : ℤ) < 0 then [] else [dataNode (escaped.write 0 r.frm).cells escLen.toNat]

/-- A complete frame at the front of the array, cut at its length, is that frame. -/
lemma dataNode_framed (escaped : Buffer UInt8 linkMtu) {data : Bytes}
    (h : escapedLen data ≤ linkMtu) :
    dataNode (escaped.write 0 (framed data)).cells (escapedLen data) = framed data := by
  have hfit : (framed data).length ≤ linkMtu := by rw [length_framed]; exact h
  have hread := escaped.read_write (show 0 + (framed data).length ≤ linkMtu by omega)
  rw [length_framed] at hread
  rw [dataNode, if_pos h]
  simpa [Buffer.read] using hread

/-- The length of a frame that fits survives its conversion to `u16`. -/
lemma toNat_ofInt_escapedLen {data : Bytes} (h : escapedLen data ≤ linkMtu) :
    (UInt16.ofInt (escapedLen data)).toNat = escapedLen data := by
  unfold linkMtu at h
  simp only [UInt16.ofInt, UInt16.toNat_ofNat']
  omega

/-- A frame that fits is queued as it is. -/
lemma putEscaped_fits (escaped : Buffer UInt8 linkMtu) {data : Bytes}
    (h : escapedLen data ≤ linkMtu) : putEscaped escaped data = [framed data] := by
  simp only [putEscaped, enFrame_eq data (show 1 ≤ linkMtu by decide), if_pos h,
    toNat_ofInt_escapedLen h, dataNode_framed escaped h]
  rw [if_neg (by omega)]

/-- A frame that does not fit is queued too: a full node, the end of which is garbage. -/
lemma putEscaped_overrun (escaped : Buffer UInt8 linkMtu) {data : Bytes}
    (h : ¬ escapedLen data ≤ linkMtu) :
    putEscaped escaped data = [(escaped.write 0 (enFrame data linkMtu).frm).cells] := by
  have hret : (enFrame data linkMtu).ret = -1 := by
    rw [enFrame_eq data (show 1 ≤ linkMtu by decide), if_neg h]
  have hlen : (UInt16.ofInt (-1)).toNat = 65535 := by decide
  simp only [putEscaped, hret, hlen]
  rw [if_neg (by omega), dataNode, if_neg (by decide), List.take_of_length_le]
  rw [Buffer.size_eq]

/-- One frame is queued in either case, and it fits into the MTU. -/
lemma putEscaped_single (escaped : Buffer UInt8 linkMtu) (data : Bytes) :
    ∃ f, putEscaped escaped data = [f] ∧ f.length ≤ linkMtu := by
  by_cases h : escapedLen data ≤ linkMtu
  · exact ⟨framed data, putEscaped_fits escaped h, by rw [length_framed]; exact h⟩
  · exact ⟨_, putEscaped_overrun escaped h, by rw [Buffer.size_eq]⟩

end Ipcf
