import ChunkStore.Boundary.Text
import Mathlib

/-!
# Texts cross the boundary byte for byte

What a caller hands over as a text is bytes without a null byte.  A text that was read has just
these bytes, and so it has no null character and can be handed out again.
-/

set_option autoImplicit false

namespace ChunkStore

/-- The bytes of a text. -/
def bytesOf (text : String) : List UInt8 :=
  text.toUTF8.data.toList

theorem bytesOf_eq_flatMap (text : String) :
    bytesOf text = text.toList.flatMap String.utf8EncodeChar := by
  have hencode : text.toUTF8 = text.toList.utf8Encode := String.utf8Encode_toList.symm
  unfold bytesOf
  rw [hencode]
  simp [List.utf8Encode]

theorem bytesOf_injective {first second : String} (h : bytesOf first = bytesOf second) :
    first = second := by
  apply String.toByteArray_inj.1
  apply ByteArray.ext
  exact Array.toList_inj.1 h

/-- A null character is a null byte. -/
theorem zero_mem_bytesOf {text : String} (h : '\x00' ∈ text.toList) : 0 ∈ bytesOf text := by
  rw [bytesOf_eq_flatMap]
  exact List.mem_flatMap.2 ⟨'\x00', h, by decide⟩

namespace Boundary

/-- A text as a caller knows it: bytes without a null byte. -/
structure CString where
  bytes : List UInt8
  noNull : 0 ∉ bytes
deriving DecidableEq

namespace CString

/-- What a caller hands over: the bytes up to the first null byte. -/
def ofRaw (raw : RawText) : CString where
  bytes := (raw.getD []).takeWhile (· ≠ 0)
  noNull := by
    intro hmem
    simpa using List.mem_takeWhile_imp hmem

/-- The text as it is handed out. -/
def ofText (text : String) : CString :=
  .ofRaw (some (bytesOf text))

/-- A text with the bytes that a caller knows. -/
def Spells (name : CString) (text : String) : Prop :=
  bytesOf text = name.bytes

variable {name other : CString} {text text' : String}

theorem Spells.text_eq (h : name.Spells text) (h' : name.Spells text') : text = text' :=
  bytesOf_injective (h.trans h'.symm)

theorem Spells.name_eq (h : name.Spells text) (h' : other.Spells text) : name = other := by
  cases name
  cases other
  simp only [mk.injEq]
  exact h.symm.trans h'

theorem Spells.not_mem (h : name.Spells text) : '\x00' ∉ text.toList := by
  intro hmem
  have hzero := zero_mem_bytesOf hmem
  rw [h] at hzero
  exact name.noNull hzero

theorem Spells.eq_ofText (h : name.Spells text) : name = ofText text := by
  obtain ⟨bytes, noNull⟩ := name
  have hbytes : bytesOf text = bytes := h
  have hall : ∀ byte ∈ bytes, decide (byte ≠ 0) = true := by
    intro byte hbyte
    rw [decide_eq_true_iff]
    rintro rfl
    exact noNull hbyte
  simp only [ofText, ofRaw, hbytes, Option.getD_some, mk.injEq]
  exact (List.takeWhile_eq_self_iff.2 hall).symm

end CString

open CString

/-- A text that is read has the bytes that were handed over. -/
theorem spells_of_readText {what text : String} {raw : RawText}
    (h : readText what raw = .ok text) : (ofRaw raw).Spells text := by
  unfold readText at h
  split at h
  · exact absurd h (by simp)
  · next bytes =>
    split at h
    · next read hread =>
      obtain rfl := Except.ok.inj h
      unfold String.fromUTF8? at hread
      split at hread
      · obtain rfl := Option.some.inj hread
        rfl
      · exact absurd hread (by simp)
    · exact absurd h (by simp)

theorem invalidArgument_of_readText {what : String} {raw : RawText} {failure : Failure}
    (h : readText what raw = .error failure) :
    ∃ description, failure = .invalidArgument description := by
  unfold readText at h
  split at h
  · exact ⟨_, (Except.error.inj h).symm⟩
  · split at h
    · exact absurd h (by simp)
    · exact ⟨_, (Except.error.inj h).symm⟩

/-- A text without a null character can be handed out. -/
theorem writeText_of_not_mem {text : String} (h : '\x00' ∉ text.toList) (what : String) :
    writeText what text = .ok text := by
  unfold writeText
  rw [if_neg]
  simpa using h

end Boundary

end ChunkStore
