import Mathlib.Algebra.GroupWithZero.Nat
import Mathlib.Data.List.Basic

/-!
# 32-bit words in network byte order
-/

namespace Wnet.Foundation

abbrev Bytes := List UInt8

/-- The four bytes of a word, most significant first. -/
def encodeWord (word : UInt32) : Bytes :=
  [.ofNat (word.toNat / 2 ^ 24), .ofNat (word.toNat / 2 ^ 16), .ofNat (word.toNat / 2 ^ 8),
    .ofNat word.toNat]

/-- The word in the first four bytes. -/
def decodeWord : Bytes → UInt32
  | first :: second :: third :: fourth :: _ =>
      .ofNat (first.toNat * 2 ^ 24 + second.toNat * 2 ^ 16 + third.toNat * 2 ^ 8 + fourth.toNat)
  | _ => 0

@[simp] theorem length_encodeWord (word : UInt32) : (encodeWord word).length = 4 := rfl

@[simp] theorem decodeWord_encodeWord (word : UInt32) (rest : Bytes) :
    decodeWord (encodeWord word ++ rest) = word := by
  have hword := word.toNat_lt
  apply UInt32.toNat_inj.mp
  simp only [encodeWord, List.cons_append, decodeWord, UInt8.toNat_ofNat', UInt32.toNat_ofNat']
  omega

end Wnet.Foundation
