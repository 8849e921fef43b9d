import Inventory.Text.Hex

/-! # Base64

Three bytes are four characters of six bits each. The last group is filled up with `=`, and the bits behind
the last byte are zero. Reading gives back what was written (`decode?_encode`).
-/

namespace Inventory.Base64

def alphabet : List Char :=
  ['A', 'B', 'C', 'D', 'E', 'F', 'G', 'H', 'I', 'J', 'K', 'L', 'M', 'N', 'O', 'P', 'Q', 'R', 'S', 'T', 'U',
   'V', 'W', 'X', 'Y', 'Z', 'a', 'b', 'c', 'd', 'e', 'f', 'g', 'h', 'i', 'j', 'k', 'l', 'm', 'n', 'o', 'p',
   'q', 'r', 's', 't', 'u', 'v', 'w', 'x', 'y', 'z', '0', '1', '2', '3', '4', '5', '6', '7', '8', '9', '+',
   '/']

def digit (n : Nat) : Char :=
  alphabet.getD (n % 64) 'A'

def value? (c : Char) : Option Nat :=
  alphabet.idxOf? c

def encodeChars : Bytes → List Char
  | [] => []
  | [a] => [digit (a.toNat / 4), digit (a.toNat % 4 * 16), '=', '=']
  | [a, b] =>
    [digit (a.toNat / 4), digit (a.toNat % 4 * 16 + b.toNat / 16), digit (b.toNat % 16 * 4), '=']
  | a :: b :: c :: rest =>
    digit (a.toNat / 4) :: digit (a.toNat % 4 * 16 + b.toNat / 16) ::
      digit (b.toNat % 16 * 4 + c.toNat / 64) :: digit c.toNat :: encodeChars rest

/-- One byte from two digits, two from three, if the bits left over are zero. -/
def lastBytes? (first second : Nat) (third : Option Nat) : Option Bytes :=
  match third with
  | none =>
    if second % 16 = 0 then some [UInt8.ofNat (first * 4 + second / 16)] else none
  | some third =>
    if third % 4 = 0 then
      some [UInt8.ofNat (first * 4 + second / 16), UInt8.ofNat (second % 16 * 16 + third / 4)]
    else none

def decodeChars? : List Char → Option Bytes
  | [] => some []
  | [a, b, '=', '='] => do lastBytes? (← value? a) (← value? b) none
  | [a, b, c, '='] => do lastBytes? (← value? a) (← value? b) (some (← value? c))
  | a :: b :: c :: d :: rest => do
    let i ← value? a
    let j ← value? b
    let k ← value? c
    let l ← value? d
    let more ← decodeChars? rest
    return UInt8.ofNat (i * 4 + j / 16) :: UInt8.ofNat (j % 16 * 16 + k / 4) ::
      UInt8.ofNat (k % 4 * 64 + l) :: more
  | _ => none

def encode (bytes : Bytes) : String :=
  String.ofList (encodeChars bytes)

def decode? (s : String) : Option Bytes :=
  decodeChars? s.toList

theorem value?_digit (n : Nat) : value? (digit n) = some (n % 64) := by
  have : ∀ d : Fin 64, value? (alphabet.getD d.val 'A') = some d.val := by decide
  exact this ⟨n % 64, Nat.mod_lt _ (by decide)⟩

theorem digit_ne_pad (n : Nat) : digit n ≠ '=' := by
  have : ∀ d : Fin 64, alphabet.getD d.val 'A' ≠ '=' := by decide
  exact this ⟨n % 64, Nat.mod_lt _ (by decide)⟩

theorem ofNat_eq_of_toNat {b : UInt8} {n : Nat} (h : n = b.toNat) : UInt8.ofNat n = b := by
  rw [h, UInt8.ofNat_toNat]

theorem decodeChars?_encodeChars (bytes : Bytes) : decodeChars? (encodeChars bytes) = some bytes := by
  fun_induction encodeChars bytes with
  | case1 => rfl
  | case2 a =>
    have ha := a.toNat_lt
    simp only [decodeChars?, value?_digit, Option.bind_eq_bind, Option.bind_some, lastBytes?]
    rw [if_pos (by omega)]
    exact congrArg (fun x => some [x]) (ofNat_eq_of_toNat (by omega))
  | case3 a b =>
    have ha := a.toNat_lt
    have hb := b.toNat_lt
    rw [decodeChars?]
    · simp only [value?_digit, Option.bind_eq_bind, Option.bind_some, lastBytes?]
      rw [if_pos (by omega), ofNat_eq_of_toNat (b := a) (by omega), ofNat_eq_of_toNat (b := b) (by omega)]
    · exact fun h => absurd h (digit_ne_pad _)
  | case4 a b c rest ih =>
    have ha := a.toNat_lt
    have hb := b.toNat_lt
    have hc := c.toNat_lt
    rw [decodeChars?]
    · simp only [value?_digit, Option.bind_eq_bind, Option.bind_some, ih, Option.pure_def]
      rw [ofNat_eq_of_toNat (b := a) (by omega), ofNat_eq_of_toNat (b := b) (by omega),
        ofNat_eq_of_toNat (b := c) (by omega)]
    · exact fun h => absurd h (digit_ne_pad _)
    · exact fun h => absurd h (digit_ne_pad _)

theorem decode?_encode (bytes : Bytes) : decode? (encode bytes) = some bytes := by
  simp [decode?, encode, decodeChars?_encodeChars]

end Inventory.Base64
