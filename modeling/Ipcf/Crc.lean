import Ipcf.Framework.Bursts
import Mathlib.Data.List.Nodup

/-!
# The checksums of `lib/crc.c`

`crc8`, `crc16` and `crc32c` with the tables of the source.  A table is a list, indexed by the
low octet of the running value and the next byte; the index is below 256, which is the length of
every table, so the default of `getD` is never read.

The high octets of the table of `crc16` are pairwise different, so that the high octet of a value
tells the index that was looked up last; from there a byte can be undone, and two bytes read off
the value they lead to (`crc16_burst`).
-/

namespace Ipcf

/-- A string of bytes: a frame, a message, a packet or a piece of one. -/
abbrev Bytes := List UInt8

/-- Polynomial: x^8 + x^7 + x^6 + x^4 + x^2 + 1. -/
def crc8Table : List UInt16 := [
    0x00, 0xF7, 0xB9, 0x4E, 0x25, 0xD2, 0x9C, 0x6B,
    0x4A, 0xBD, 0xF3, 0x04, 0x6F, 0x98, 0xD6, 0x21,
    0x94, 0x63, 0x2D, 0xDA, 0xB1, 0x46, 0x08, 0xFF,
    0xDE, 0x29, 0x67, 0x90, 0xFB, 0x0C, 0x42, 0xB5,
    0x7F, 0x88, 0xC6, 0x31, 0x5A, 0xAD, 0xE3, 0x14,
    0x35, 0xC2, 0x8C, 0x7B, 0x10, 0xE7, 0xA9, 0x5E,
    0xEB, 0x1C, 0x52, 0xA5, 0xCE, 0x39, 0x77, 0x80,
    0xA1, 0x56, 0x18, 0xEF, 0x84, 0x73, 0x3D, 0xCA,
    0xFE, 0x09, 0x47, 0xB0, 0xDB, 0x2C, 0x62, 0x95,
    0xB4, 0x43, 0x0D, 0xFA, 0x91, 0x66, 0x28, 0xDF,
    0x6A, 0x9D, 0xD3, 0x24, 0x4F, 0xB8, 0xF6, 0x01,
    0x20, 0xD7, 0x99, 0x6E, 0x05, 0xF2, 0xBC, 0x4B,
    0x81, 0x76, 0x38, 0xCF, 0xA4, 0x53, 0x1D, 0xEA,
    0xCB, 0x3C, 0x72, 0x85, 0xEE, 0x19, 0x57, 0xA0,
    0x15, 0xE2, 0xAC, 0x5B, 0x30, 0xC7, 0x89, 0x7E,
    0x5F, 0xA8, 0xE6, 0x11, 0x7A, 0x8D, 0xC3, 0x34,
    0xAB, 0x5C, 0x12, 0xE5, 0x8E, 0x79, 0x37, 0xC0,
    0xE1, 0x16, 0x58, 0xAF, 0xC4, 0x33, 0x7D, 0x8A,
    0x3F, 0xC8, 0x86, 0x71, 0x1A, 0xED, 0xA3, 0x54,
    0x75, 0x82, 0xCC, 0x3B, 0x50, 0xA7, 0xE9, 0x1E,
    0xD4, 0x23, 0x6D, 0x9A, 0xF1, 0x06, 0x48, 0xBF,
    0x9E, 0x69, 0x27, 0xD0, 0xBB, 0x4C, 0x02, 0xF5,
    0x40, 0xB7, 0xF9, 0x0E, 0x65, 0x92, 0xDC, 0x2B,
    0x0A, 0xFD, 0xB3, 0x44, 0x2F, 0xD8, 0x96, 0x61,
    0x55, 0xA2, 0xEC, 0x1B, 0x70, 0x87, 0xC9, 0x3E,
    0x1F, 0xE8, 0xA6, 0x51, 0x3A, 0xCD, 0x83, 0x74,
    0xC1, 0x36, 0x78, 0x8F, 0xE4, 0x13, 0x5D, 0xAA,
    0x8B, 0x7C, 0x32, 0xC5, 0xAE, 0x59, 0x17, 0xE0,
    0x2A, 0xDD, 0x93, 0x64, 0x0F, 0xF8, 0xB6, 0x41,
    0x60, 0x97, 0xD9, 0x2E, 0x45, 0xB2, 0xFC, 0x0B,
    0xBE, 0x49, 0x07, 0xF0, 0x9B, 0x6C, 0x22, 0xD5,
    0xF4, 0x03, 0x4D, 0xBA, 0xD1, 0x26, 0x68, 0x9F]

/-- Polynomial: x^16 + x^15 + x^2 + 1. -/
def crc16Table : List UInt16 := [
    0x0000, 0xC0C1, 0xC181, 0x0140, 0xC301, 0x03C0, 0x0280, 0xC241,
    0xC601, 0x06C0, 0x0780, 0xC741, 0x0500, 0xC5C1, 0xC481, 0x0440,
    0xCC01, 0x0CC0, 0x0D80, 0xCD41, 0x0F00, 0xCFC1, 0xCE81, 0x0E40,
    0x0A00, 0xCAC1, 0xCB81, 0x0B40, 0xC901, 0x09C0, 0x0880, 0xC841,
    0xD801, 0x18C0, 0x1980, 0xD941, 0x1B00, 0xDBC1, 0xDA81, 0x1A40,
    0x1E00, 0xDEC1, 0xDF81, 0x1F40, 0xDD01, 0x1DC0, 0x1C80, 0xDC41,
    0x1400, 0xD4C1, 0xD581, 0x1540, 0xD701, 0x17C0, 0x1680, 0xD641,
    0xD201, 0x12C0, 0x1380, 0xD341, 0x1100, 0xD1C1, 0xD081, 0x1040,
    0xF001, 0x30C0, 0x3180, 0xF141, 0x3300, 0xF3C1, 0xF281, 0x3240,
    0x3600, 0xF6C1, 0xF781, 0x3740, 0xF501, 0x35C0, 0x3480, 0xF441,
    0x3C00, 0xFCC1, 0xFD81, 0x3D40, 0xFF01, 0x3FC0, 0x3E80, 0xFE41,
    0xFA01, 0x3AC0, 0x3B80, 0xFB41, 0x3900, 0xF9C1, 0xF881, 0x3840,
    0x2800, 0xE8C1, 0xE981, 0x2940, 0xEB01, 0x2BC0, 0x2A80, 0xEA41,
    0xEE01, 0x2EC0, 0x2F80, 0xEF41, 0x2D00, 0xEDC1, 0xEC81, 0x2C40,
    0xE401, 0x24C0, 0x2580, 0xE541, 0x2700, 0xE7C1, 0xE681, 0x2640,
    0x2200, 0xE2C1, 0xE381, 0x2340, 0xE101, 0x21C0, 0x2080, 0xE041,
    0xA001, 0x60C0, 0x6180, 0xA141, 0x6300, 0xA3C1, 0xA281, 0x6240,
    0x6600, 0xA6C1, 0xA781, 0x6740, 0xA501, 0x65C0, 0x6480, 0xA441,
    0x6C00, 0xACC1, 0xAD81, 0x6D40, 0xAF01, 0x6FC0, 0x6E80, 0xAE41,
    0xAA01, 0x6AC0, 0x6B80, 0xAB41, 0x6900, 0xA9C1, 0xA881, 0x6840,
    0x7800, 0xB8C1, 0xB981, 0x7940, 0xBB01, 0x7BC0, 0x7A80, 0xBA41,
    0xBE01, 0x7EC0, 0x7F80, 0xBF41, 0x7D00, 0xBDC1, 0xBC81, 0x7C40,
    0xB401, 0x74C0, 0x7580, 0xB541, 0x7700, 0xB7C1, 0xB681, 0x7640,
    0x7200, 0xB2C1, 0xB381, 0x7340, 0xB101, 0x71C0, 0x7080, 0xB041,
    0x5000, 0x90C1, 0x9181, 0x5140, 0x9301, 0x53C0, 0x5280, 0x9241,
    0x9601, 0x56C0, 0x5780, 0x9741, 0x5500, 0x95C1, 0x9481, 0x5440,
    0x9C01, 0x5CC0, 0x5D80, 0x9D41, 0x5F00, 0x9FC1, 0x9E81, 0x5E40,
    0x5A00, 0x9AC1, 0x9B81, 0x5B40, 0x9901, 0x59C0, 0x5880, 0x9841,
    0x8801, 0x48C0, 0x4980, 0x8941, 0x4B00, 0x8BC1, 0x8A81, 0x4A40,
    0x4E00, 0x8EC1, 0x8F81, 0x4F40, 0x8D01, 0x4DC0, 0x4C80, 0x8C41,
    0x4400, 0x84C1, 0x8581, 0x4540, 0x8701, 0x47C0, 0x4680, 0x8641,
    0x8201, 0x42C0, 0x4380, 0x8341, 0x4100, 0x81C1, 0x8081, 0x4040]

/-- Polynomial: x^32 + x^26 + x^23 + x^22 + x^16 + x^12 + x^11 + x^10 + x^8 + x^7 + x^5 + x^4 +
x^2 + x^1 + x^0. -/
def crc32Table : List UInt32 := [
    0x00000000, 0xF26B8303, 0xE13B70F7, 0x1350F3F4, 0xC79A971F, 0x35F1141C,
    0x26A1E7E8, 0xD4CA64EB, 0x8AD958CF, 0x78B2DBCC, 0x6BE22838, 0x9989AB3B,
    0x4D43CFD0, 0xBF284CD3, 0xAC78BF27, 0x5E133C24, 0x105EC76F, 0xE235446C,
    0xF165B798, 0x030E349B, 0xD7C45070, 0x25AFD373, 0x36FF2087, 0xC494A384,
    0x9A879FA0, 0x68EC1CA3, 0x7BBCEF57, 0x89D76C54, 0x5D1D08BF, 0xAF768BBC,
    0xBC267848, 0x4E4DFB4B, 0x20BD8EDE, 0xD2D60DDD, 0xC186FE29, 0x33ED7D2A,
    0xE72719C1, 0x154C9AC2, 0x061C6936, 0xF477EA35, 0xAA64D611, 0x580F5512,
    0x4B5FA6E6, 0xB93425E5, 0x6DFE410E, 0x9F95C20D, 0x8CC531F9, 0x7EAEB2FA,
    0x30E349B1, 0xC288CAB2, 0xD1D83946, 0x23B3BA45, 0xF779DEAE, 0x05125DAD,
    0x1642AE59, 0xE4292D5A, 0xBA3A117E, 0x4851927D, 0x5B016189, 0xA96AE28A,
    0x7DA08661, 0x8FCB0562, 0x9C9BF696, 0x6EF07595, 0x417B1DBC, 0xB3109EBF,
    0xA0406D4B, 0x522BEE48, 0x86E18AA3, 0x748A09A0, 0x67DAFA54, 0x95B17957,
    0xCBA24573, 0x39C9C670, 0x2A993584, 0xD8F2B687, 0x0C38D26C, 0xFE53516F,
    0xED03A29B, 0x1F682198, 0x5125DAD3, 0xA34E59D0, 0xB01EAA24, 0x42752927,
    0x96BF4DCC, 0x64D4CECF, 0x77843D3B, 0x85EFBE38, 0xDBFC821C, 0x2997011F,
    0x3AC7F2EB, 0xC8AC71E8, 0x1C661503, 0xEE0D9600, 0xFD5D65F4, 0x0F36E6F7,
    0x61C69362, 0x93AD1061, 0x80FDE395, 0x72966096, 0xA65C047D, 0x5437877E,
    0x4767748A, 0xB50CF789, 0xEB1FCBAD, 0x197448AE, 0x0A24BB5A, 0xF84F3859,
    0x2C855CB2, 0xDEEEDFB1, 0xCDBE2C45, 0x3FD5AF46, 0x7198540D, 0x83F3D70E,
    0x90A324FA, 0x62C8A7F9, 0xB602C312, 0x44694011, 0x5739B3E5, 0xA55230E6,
    0xFB410CC2, 0x092A8FC1, 0x1A7A7C35, 0xE811FF36, 0x3CDB9BDD, 0xCEB018DE,
    0xDDE0EB2A, 0x2F8B6829, 0x82F63B78, 0x709DB87B, 0x63CD4B8F, 0x91A6C88C,
    0x456CAC67, 0xB7072F64, 0xA457DC90, 0x563C5F93, 0x082F63B7, 0xFA44E0B4,
    0xE9141340, 0x1B7F9043, 0xCFB5F4A8, 0x3DDE77AB, 0x2E8E845F, 0xDCE5075C,
    0x92A8FC17, 0x60C37F14, 0x73938CE0, 0x81F80FE3, 0x55326B08, 0xA759E80B,
    0xB4091BFF, 0x466298FC, 0x1871A4D8, 0xEA1A27DB, 0xF94AD42F, 0x0B21572C,
    0xDFEB33C7, 0x2D80B0C4, 0x3ED04330, 0xCCBBC033, 0xA24BB5A6, 0x502036A5,
    0x4370C551, 0xB11B4652, 0x65D122B9, 0x97BAA1BA, 0x84EA524E, 0x7681D14D,
    0x2892ED69, 0xDAF96E6A, 0xC9A99D9E, 0x3BC21E9D, 0xEF087A76, 0x1D63F975,
    0x0E330A81, 0xFC588982, 0xB21572C9, 0x407EF1CA, 0x532E023E, 0xA145813D,
    0x758FE5D6, 0x87E466D5, 0x94B49521, 0x66DF1622, 0x38CC2A06, 0xCAA7A905,
    0xD9F75AF1, 0x2B9CD9F2, 0xFF56BD19, 0x0D3D3E1A, 0x1E6DCDEE, 0xEC064EED,
    0xC38D26C4, 0x31E6A5C7, 0x22B65633, 0xD0DDD530, 0x0417B1DB, 0xF67C32D8,
    0xE52CC12C, 0x1747422F, 0x49547E0B, 0xBB3FFD08, 0xA86F0EFC, 0x5A048DFF,
    0x8ECEE914, 0x7CA56A17, 0x6FF599E3, 0x9D9E1AE0, 0xD3D3E1AB, 0x21B862A8,
    0x32E8915C, 0xC083125F, 0x144976B4, 0xE622F5B7, 0xF5720643, 0x07198540,
    0x590AB964, 0xAB613A67, 0xB831C993, 0x4A5A4A90, 0x9E902E7B, 0x6CFBAD78,
    0x7FAB5E8C, 0x8DC0DD8F, 0xE330A81A, 0x115B2B19, 0x020BD8ED, 0xF0605BEE,
    0x24AA3F05, 0xD6C1BC06, 0xC5914FF2, 0x37FACCF1, 0x69E9F0D5, 0x9B8273D6,
    0x88D28022, 0x7AB90321, 0xAE7367CA, 0x5C18E4C9, 0x4F48173D, 0xBD23943E,
    0xF36E6F75, 0x0105EC76, 0x12551F82, 0xE03E9C81, 0x34F4F86A, 0xC69F7B69,
    0xD5CF889D, 0x27A40B9E, 0x79B737BA, 0x8BDCB4B9, 0x988C474D, 0x6AE7C44E,
    0xBE2DA0A5, 0x4C4623A6, 0x5F16D052, 0xAD7D5351]

/-- The CRC-8 of `buffer`, continuing from the previous value `crc`. -/
def crc8 (crc : UInt8) : (buffer : Bytes) → UInt8
  | [] => crc
  | b :: buffer => crc8 (crc8Table.getD (crc ^^^ b).toNat 0).toUInt8 buffer

def crc16Byte (crc : UInt16) (data : UInt8) : UInt16 :=
  (crc >>> 8) ^^^ crc16Table.getD ((crc ^^^ data.toUInt16) &&& 0xff).toNat 0

/-- The CRC-16 of `buffer`, continuing from the previous value `crc`. -/
def crc16 (crc : UInt16) : (buffer : Bytes) → UInt16
  | [] => crc
  | b :: buffer => crc16 (crc16Byte crc b) buffer

/-- The loop of `crc32c`. -/
def crc32cLoop (crc : UInt32) : (data : Bytes) → UInt32
  | [] => crc
  | b :: data =>
    crc32cLoop (crc32Table.getD ((crc ^^^ b.toUInt32) &&& 0xff).toNat 0 ^^^ (crc >>> 8)) data

/-- The CRC-32C of `data`. -/
def crc32c (data : Bytes) : UInt32 := ~~~ crc32cLoop 0xffffffff data

/-! ## Bursts in a CRC-16 -/

lemma crc16_eq_foldl (crc : UInt16) (buffer : Bytes) :
    crc16 crc buffer = buffer.foldl crc16Byte crc := by
  induction buffer generalizing crc with
  | nil => rfl
  | cons b buffer ih => exact ih _

/-- The high octet of a CRC-16. -/
def highOctet (crc : UInt16) : UInt16 := crc >>> 8

lemma toNat_highOctet (crc : UInt16) : (highOctet crc).toNat = crc.toNat / 256 := by
  rw [highOctet, UInt16.toNat_shiftRight, Nat.shiftRight_eq_div_pow]
  rfl

lemma length_crc16Table : crc16Table.length = 256 := by decide +kernel

/-- No number of the list is met twice; `seen` has a bit for each that was met. -/
def distinct : (seen : ℕ) → List ℕ → Bool
  | _, [] => true
  | seen, a :: as => !seen.testBit a && distinct (seen ||| 1 <<< a) as

lemma not_seen_of_distinct {seen : ℕ} {as : List ℕ} (h : distinct seen as = true) :
    ∀ a ∈ as, seen.testBit a = false := by
  induction as generalizing seen with
  | nil => simp
  | cons b as ih =>
    rw [distinct, Bool.and_eq_true, Bool.not_eq_true'] at h
    intro a ha
    rcases List.mem_cons.1 ha with rfl | ha
    · exact h.1
    · have hor := ih h.2 a ha
      rw [Nat.testBit_or, Bool.or_eq_false_iff] at hor
      exact hor.1

lemma nodup_of_distinct {seen : ℕ} {as : List ℕ} (h : distinct seen as = true) : as.Nodup := by
  induction as generalizing seen with
  | nil => exact List.nodup_nil
  | cons a as ih =>
    rw [distinct, Bool.and_eq_true] at h
    refine List.nodup_cons.2 ⟨fun ha => ?_, ih h.2⟩
    have hnot := not_seen_of_distinct h.2 a ha
    simp [Nat.testBit_or, Nat.testBit_shiftLeft] at hnot

/-- The high octets of the table are pairwise different. -/
lemma nodup_high_crc16Table : (crc16Table.map highOctet).Nodup := by
  have hdistinct : distinct 0 ((crc16Table.map highOctet).map UInt16.toNat) = true := by
    decide +kernel
  exact (nodup_of_distinct hdistinct).of_map _

/-- The entry of the table that the octet `i` looks up. -/
def crc16Entry (i : UInt8) : UInt16 := crc16Table.getD i.toNat 0

lemma highOctet_crc16Entry_inj {i j : UInt8}
    (h : highOctet (crc16Entry i) = highOctet (crc16Entry j)) : i = j := by
  have hlen : ∀ k : UInt8, k.toNat < (crc16Table.map highOctet).length := by
    intro k
    rw [List.length_map, length_crc16Table]
    exact k.toNat_lt
  have hget : ∀ k : UInt8, highOctet (crc16Entry k) =
      (crc16Table.map highOctet).get ⟨k.toNat, hlen k⟩ := by
    intro k
    have hk := hlen k
    rw [List.length_map] at hk
    rw [crc16Entry, List.getD_eq_getElem?_getD, List.getElem?_eq_getElem hk]
    simp
  rw [hget, hget] at h
  have hidx := List.nodup_iff_injective_get.1 nodup_high_crc16Table h
  rw [Fin.mk.injEq] at hidx
  exact UInt8.toNat_inj.1 hidx

lemma crc16Byte_eq (crc : UInt16) (data : UInt8) :
    crc16Byte crc data = (crc >>> 8) ^^^ crc16Entry (crc.toUInt8 ^^^ data) := by
  have hidx : ((crc ^^^ data.toUInt16) &&& 0xff).toNat = (crc.toUInt8 ^^^ data).toNat := by
    have hlow : (crc ^^^ data.toUInt16).toUInt8 = crc.toUInt8 ^^^ data := by
      rw [UInt16.toUInt8_xor, UInt8.toUInt8_toUInt16]
    rw [← hlow, UInt16.toNat_toUInt8, UInt16.toNat_and]
    exact Nat.and_two_pow_sub_one_eq_mod _ 8
  rw [crc16Byte, hidx, crc16Entry]

/-- The high octet of the next value is that of the entry looked up. -/
lemma crc16Byte_high (crc : UInt16) (data : UInt8) :
    highOctet (crc16Byte crc data) = highOctet (crc16Entry (crc.toUInt8 ^^^ data)) := by
  have hgone : crc >>> 8 >>> 8 = 0 := by
    have hcrc := crc.toNat_lt
    apply UInt16.toNat_inj.1
    rw [show crc >>> 8 >>> 8 = highOctet (highOctet crc) from rfl, toNat_highOctet,
      toNat_highOctet, UInt16.toNat_zero]
    omega
  rw [crc16Byte_eq, highOctet, highOctet, UInt16.shiftRight_xor, hgone, UInt16.zero_xor]

section

variable {crc crc' : UInt16} {data data' : UInt8}

lemma eq_of_octets (hhigh : highOctet crc = highOctet crc') (hlow : crc.toUInt8 = crc'.toUInt8) :
    crc = crc' := by
  have hdiv := congrArg UInt16.toNat hhigh
  have hmod := congrArg UInt8.toNat hlow
  rw [toNat_highOctet, toNat_highOctet] at hdiv
  rw [UInt16.toNat_toUInt8, UInt16.toNat_toUInt8] at hmod
  apply UInt16.toNat_inj.1
  omega

/-- The high octet of the next value tells the index that was looked up. -/
lemma crc16Byte_index (h : highOctet (crc16Byte crc data) = highOctet (crc16Byte crc' data')) :
    crc.toUInt8 ^^^ data = crc'.toUInt8 ^^^ data' := by
  rw [crc16Byte_high, crc16Byte_high] at h
  exact highOctet_crc16Entry_inj h

lemma crc16Byte_high_prev (h : crc16Byte crc data = crc16Byte crc' data') :
    highOctet crc = highOctet crc' := by
  have hidx := crc16Byte_index (congrArg highOctet h)
  rw [crc16Byte_eq, crc16Byte_eq, hidx] at h
  exact (UInt16.xor_left_inj _).1 h

end

lemma reversible_crc16Byte : Reversible crc16Byte := by
  intro data crc crc' h
  have hidx := crc16Byte_index (congrArg highOctet h)
  exact eq_of_octets (crc16Byte_high_prev h) ((UInt8.xor_left_inj _).1 hidx)

/-- Two bytes can be read off the value they lead to. -/
lemma separates_crc16Byte : Separates crc16Byte 2 := by
  intro crc w w' hw hw' h
  obtain ⟨a, b, rfl⟩ := List.length_eq_two.1 hw
  obtain ⟨a', b', rfl⟩ := List.length_eq_two.1 hw'
  simp only [List.foldl_cons, List.foldl_nil] at h
  have ha : a = a' := (UInt8.xor_right_inj _).1 (crc16Byte_index (crc16Byte_high_prev h))
  subst ha
  have hb : b = b' := (UInt8.xor_right_inj _).1 (crc16Byte_index (congrArg highOctet h))
  rw [hb]

/-- **A CRC-16 sees two adjacent bytes.** Buffers of one length that agree but for two adjacent
bytes, and have the same CRC-16, are equal. -/
lemma crc16_burst {crc : UInt16} {d d' : Bytes} (hlen : d.length = d'.length) {i : ℕ}
    (hi : i + 2 ≤ d.length) (hout : ∀ j, j < i ∨ i + 2 ≤ j → d[j]? = d'[j]?)
    (h : crc16 crc d = crc16 crc d') : d = d' := by
  rw [crc16_eq_foldl, crc16_eq_foldl] at h
  exact reversible_crc16Byte.eq_of_foldl_eq separates_crc16Byte hlen hi hout h

end Ipcf
