import DcBench.Lib.LittleEndian

namespace DcBench.Message

open DcBench.Lib

/-- The wire byte behind `enum class MessageType : uint8_t`. A header copied
from the network can hold any byte here, not only the two named values. -/
abbrev MessageType := UInt8

def request : MessageType := 1

def response : MessageType := 2

structure MessageHeader where
  id : UInt64
  payloadSize : UInt32
  priority : UInt8
  type : MessageType
  sendTimestampNs : UInt64
deriving DecidableEq, Repr

/-- `sizeof(MessageHeader)`: the struct is packed. -/
def headerSize : Nat := 22

def maxPayloadSize : Nat := 4 * 1024 * 1024

def serializeHeader (hdr : MessageHeader) : List UInt8 :=
  LittleEndian.encode 8 hdr.id.toNat ++ LittleEndian.encode 4 hdr.payloadSize.toNat ++
    [hdr.priority, hdr.type] ++ LittleEndian.encode 8 hdr.sendTimestampNs.toNat

def deserializeHeader (buf : List UInt8) : MessageHeader where
  id := UInt64.ofNat (LittleEndian.decode (buf.take 8))
  payloadSize := UInt32.ofNat (LittleEndian.decode ((buf.drop 8).take 4))
  priority := buf.getD 12 0
  type := buf.getD 13 0
  sendTimestampNs := UInt64.ofNat (LittleEndian.decode ((buf.drop 14).take 8))

@[simp] theorem length_serializeHeader (hdr : MessageHeader) :
    (serializeHeader hdr).length = headerSize := by
  simp [serializeHeader, headerSize]

theorem deserialize_serialize (hdr : MessageHeader) :
    deserializeHeader (serializeHeader hdr) = hdr := by
  have hid := LittleEndian.decode_encode 8 hdr.id.toNat hdr.id.toNat_lt
  have hps := LittleEndian.decode_encode 4 hdr.payloadSize.toNat hdr.payloadSize.toNat_lt
  have hts := LittleEndian.decode_encode 8 hdr.sendTimestampNs.toNat hdr.sendTimestampNs.toNat_lt
  cases hdr with
  | mk id ps prio ty ts =>
    have hts' : LittleEndian.decode ((LittleEndian.encode 8 ts.toNat).take 8) = ts.toNat := by
      rw [List.take_of_length_le (by simp)]
      exact hts
    simp [deserializeHeader, serializeHeader, List.drop_append, List.drop_eq_nil_of_le, hid, hps, hts']

theorem toNat_payloadSize_deserialize (buf : List UInt8) :
    (deserializeHeader buf).payloadSize.toNat = LittleEndian.decode ((buf.drop 8).take 4) := by
  have hlt : LittleEndian.decode ((buf.drop 8).take 4) < 2 ^ 32 := by
    refine lt_of_lt_of_le (LittleEndian.decode_lt _) ?_
    exact Nat.pow_le_pow_right (n := 256) (j := 4) (by decide) (List.length_take_le 4 _)
  simp only [deserializeHeader, UInt32.toNat_ofNat']
  exact Nat.mod_eq_of_lt hlt

theorem serialize_deserialize (buf : List UInt8) (h : buf.length = headerSize) :
    serializeHeader (deserializeHeader buf) = buf := by
  have enc (w : Nat) (bs : List UInt8) (hw : bs.length = w) :
      LittleEndian.encode w (LittleEndian.decode bs) = bs := by
    subst hw
    exact LittleEndian.encode_decode bs
  have hid : (UInt64.ofNat (LittleEndian.decode (buf.take 8))).toNat =
      LittleEndian.decode (buf.take 8) := by
    have hlt := LittleEndian.decode_lt (buf.take 8)
    rw [List.length_take_of_le (by rw [h]; decide)] at hlt
    exact Nat.mod_eq_of_lt hlt
  have hts : (UInt64.ofNat (LittleEndian.decode ((buf.drop 14).take 8))).toNat =
      LittleEndian.decode ((buf.drop 14).take 8) := by
    have hlt := LittleEndian.decode_lt ((buf.drop 14).take 8)
    rw [List.length_take_of_le (by rw [List.length_drop, h]; decide)] at hlt
    exact Nat.mod_eq_of_lt hlt
  have hsplit : buf.take 8 ++ (buf.drop 8).take 4 ++ [buf.getD 12 0, buf.getD 13 0] ++
      (buf.drop 14).take 8 = buf := by
    have h22 : buf.length = 22 := h
    have hlast : (buf.drop 14).take 8 = buf.drop 14 := List.take_of_length_le (by simp [h22])
    have hmid : (buf.drop 8).take 4 ++ buf.drop 12 = buf.drop 8 := by
      have ht := List.take_append_drop 4 (buf.drop 8)
      rwa [List.drop_drop] at ht
    have h12 : buf.drop 12 = buf.getD 12 0 :: buf.getD 13 0 :: buf.drop 14 := by
      rw [List.drop_eq_getElem_cons (i := 12) (by omega), List.drop_eq_getElem_cons (i := 13) (by omega)]
      simp [h22]
    rw [hlast, List.append_assoc, List.cons_append, List.cons_append, List.nil_append, ← h12,
      List.append_assoc, hmid, List.take_append_drop]
  rw [serializeHeader, toNat_payloadSize_deserialize]
  simp only [deserializeHeader, hid, hts]
  rw [enc 8 _ (by simp [h, headerSize]), enc 4 _ (by simp [h, headerSize]),
    enc 8 _ (by simp [h, headerSize])]
  exact hsplit

theorem deserialize_append (head rest : List UInt8) (h : head.length = headerSize) :
    deserializeHeader (head ++ rest) = deserializeHeader head := by
  have h22 : head.length = 22 := h
  have ht (n k : Nat) (hk : n + k ≤ 22) : ((head ++ rest).drop n).take k = (head.drop n).take k := by
    rw [List.drop_append_of_le_length (by omega), List.take_append_of_le_length (by simp; omega)]
  have h0 := ht 0 8 (by omega)
  have hg (i : Nat) (hi : i < 22) : (head ++ rest).getD i 0 = head.getD i 0 := by
    simp [List.getElem?_append_left, h22, hi]
  simp only [List.drop_zero] at h0
  simp only [deserializeHeader, h0, ht 8 4 (by omega), ht 14 8 (by omega), hg 12 (by omega), hg 13 (by omega)]

theorem toNat_frame (size : UInt32) : (22 + size.toUInt64 : UInt64).toNat = headerSize + size.toNat := by
  have hlt := size.toNat_lt
  simp only [UInt64.toNat_add, UInt32.toNat_toUInt64, UInt64.toNat_ofNat]
  rw [headerSize]
  omega

theorem serialize_setType (hdr : MessageHeader) (t : MessageType) :
    serializeHeader { hdr with type := t } = (serializeHeader hdr).set 13 t := by
  simp [serializeHeader]

end DcBench.Message
