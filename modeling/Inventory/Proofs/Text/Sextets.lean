import Inventory.Proofs.Text.Naming
import Inventory.Text.Base64

/-! # Which text is base64 for which bytes

`Spells` says it by bits and without a reader: six bits in each digit, zero bits only to fill the last digit, pads only to
fill the last group of four. Each byte string has one such text (`Spells.unique`), the reader takes it and no other
(`decode?_eq_some_iff`), and nothing in it is white space.
-/

namespace Inventory.Base64

def binary : (width : Nat) → Nat → List Nat
  | 0, _ => []
  | width + 1, n => binary width (n / 2) ++ [n % 2]

/-- Digits of six bits that hold bytes, with zero bits and pads behind them. -/
structure Holds (digits : List (Fin 64)) (zeros pads : Nat) (bytes : Bytes) : Prop where
  bits : digits.flatMap (fun d : Fin 64 => binary 6 d) =
    bytes.flatMap (fun b => binary 8 b.toNat) ++ List.replicate zeros 0
  zeros_lt : zeros < 6
  pads_lt : pads < 4
  whole : 4 ∣ digits.length + pads

def Spells (text : List Char) (bytes : Bytes) : Prop :=
  ∃ digits zeros pads, text = digits.map (fun d : Fin 64 => digit d) ++ List.replicate pads '=' ∧
    Holds digits zeros pads bytes

variable {text other : List Char} {bytes : Bytes} {digits : List (Fin 64)} {zeros pads : Nat}

@[simp] theorem length_binary (width n : Nat) : (binary width n).length = width := by
  induction width generalizing n with
  | zero => rfl
  | succ width ih => rw [binary, List.length_append, ih, List.length_singleton]

/-- The digits of a number are those of its upper part and those of its lower part. -/
theorem binary_append (upper width : Nat) {high low : Nat} (h : low < Nat.pow 2 width) :
    binary (upper + width) (high * Nat.pow 2 width + low) = binary upper high ++ binary width low := by
  induction width generalizing low with
  | zero =>
    obtain rfl : low = 0 := Nat.lt_one_iff.1 h
    rw [binary, List.append_nil]
    exact congrArg (binary upper) (Nat.mul_one high)
  | succ width ih =>
    have hpow : Nat.pow 2 (width + 1) = Nat.pow 2 width * 2 := rfl
    rw [hpow] at h ⊢
    have hhalf : (high * (Nat.pow 2 width * 2) + low) / 2 = high * Nat.pow 2 width + low / 2 := by
      rw [← Nat.mul_assoc]
      omega
    have hlast : (high * (Nat.pow 2 width * 2) + low) % 2 = low % 2 := by
      rw [← Nat.mul_assoc]
      omega
    rw [← Nat.add_assoc, binary, binary, hhalf, hlast, ih (by omega), List.append_assoc]

theorem binary_inj (width : Nat) {m n : Nat} (hm : m < Nat.pow 2 width) (hn : n < Nat.pow 2 width)
    (h : binary width m = binary width n) : m = n := by
  induction width generalizing m n with
  | zero => rw [Nat.lt_one_iff.1 hm, Nat.lt_one_iff.1 hn]
  | succ width ih =>
    have hpow : Nat.pow 2 (width + 1) = Nat.pow 2 width * 2 := rfl
    rw [hpow] at hm hn
    obtain ⟨hhalf, hlast⟩ := List.append_inj' h rfl
    have hhalf := ih (by omega) (by omega) hhalf
    have hlast := List.singleton_inj.1 hlast
    omega

theorem length_flatMap_const {α β : Type} {f : α → List β} {width : Nat} (h : ∀ a, (f a).length = width)
    (items : List α) : (items.flatMap f).length = width * items.length := by
  induction items with
  | nil => rfl
  | cons a rest ih => rw [List.flatMap_cons, List.length_append, h, ih, List.length_cons, Nat.mul_succ, Nat.add_comm]

/-- Blocks of one length can be told apart where they stand one behind the other. -/
theorem flatMap_inj {α β : Type} {f : α → List β} {width : Nat} (h : ∀ a, (f a).length = width)
    (hinj : ∀ a b, f a = f b → a = b) {items others : List α} (hlength : items.length = others.length)
    (heq : items.flatMap f = others.flatMap f) : items = others := by
  induction items generalizing others with
  | nil => exact (List.eq_nil_of_length_eq_zero hlength.symm).symm
  | cons a rest ih =>
    cases others with
    | nil => cases hlength
    | cons b others =>
      rw [List.flatMap_cons, List.flatMap_cons] at heq
      obtain ⟨hhead, htail⟩ := List.append_inj heq ((h a).trans (h b).symm)
      rw [hinj a b hhead, ih (Nat.succ.inj hlength) htail]

theorem Holds.length_eq (h : Holds digits zeros pads bytes) : 6 * digits.length = 8 * bytes.length + zeros := by
  have hlength := congrArg List.length h.bits
  rwa [length_flatMap_const fun d : Fin 64 => length_binary 6 d, List.length_append,
    length_flatMap_const fun b : UInt8 => length_binary 8 b.toNat, List.length_replicate] at hlength

/-- The length of the bytes settles how many digits, zero bits and pads there are, and then the bits are the same. -/
theorem Spells.unique (h : Spells text bytes) (hother : Spells other bytes) : text = other := by
  obtain ⟨digits, zeros, pads, rfl, hdigits⟩ := h
  obtain ⟨digits', zeros', pads', rfl, hdigits'⟩ := hother
  have hlength := hdigits.length_eq
  have hlength' := hdigits'.length_eq
  have hzeros := hdigits.zeros_lt
  have hzeros' := hdigits'.zeros_lt
  obtain rfl : zeros = zeros' := by omega
  have hcount : digits.length = digits'.length := by omega
  obtain rfl : digits = digits' :=
    flatMap_inj (fun d : Fin 64 => length_binary 6 d) (fun d e heq => Fin.ext (binary_inj 6 d.isLt e.isLt heq)) hcount
      (hdigits.bits.trans hdigits'.bits.symm)
  have hpads := hdigits.pads_lt
  have hpads' := hdigits'.pads_lt
  have hwhole := hdigits.whole
  have hwhole' := hdigits'.whole
  obtain rfl : pads = pads' := by omega
  rfl

theorem binary_div_mod (upper width n : Nat) :
    binary (upper + width) n = binary upper (n / Nat.pow 2 width) ++ binary width (n % Nat.pow 2 width) := by
  rw [← binary_append upper width (Nat.mod_lt n (Nat.pow_pos Nat.two_pos)), Nat.div_add_mod']

section Groups

variable {a b c : Nat}

/-- A byte ends within the second digit of its group, behind two of its six bits. -/
theorem binary_first (hb : b < 256) :
    binary 6 (a / 4) ++ binary 6 (a % 4 * 16 + b / 16) = binary 8 a ++ binary 4 (b / 16) := by
  have hbyte : binary 8 a = binary 6 (a / 4) ++ binary 2 (a % 4) := binary_div_mod 6 2 a
  have hdigit : binary 6 (a % 4 * 16 + b / 16) = binary 2 (a % 4) ++ binary 4 (b / 16) :=
    binary_append 2 4 (show b / 16 < 16 by omega)
  rw [hbyte, hdigit, List.append_assoc]

/-- The second byte ends within the third digit, behind four of its six bits. -/
theorem binary_second (hc : c < 256) :
    binary 4 (b / 16) ++ binary 6 (b % 16 * 4 + c / 64) = binary 8 b ++ binary 2 (c / 64) := by
  have hbyte : binary 8 b = binary 4 (b / 16) ++ binary 4 (b % 16) := binary_div_mod 4 4 b
  have hdigit : binary 6 (b % 16 * 4 + c / 64) = binary 4 (b % 16) ++ binary 2 (c / 64) :=
    binary_append 4 2 (show c / 64 < 4 by omega)
  rw [hbyte, hdigit, List.append_assoc]

/-- One byte in two digits. -/
theorem binary_single (a : Nat) : binary 6 (a / 4) ++ binary 6 (a % 4 * 16) = binary 8 a ++ List.replicate 4 0 := by
  have hfirst := binary_first (a := a) (b := 0) (by decide)
  rwa [Nat.zero_div, Nat.add_zero] at hfirst

/-- Two bytes in three digits. -/
theorem binary_double (hb : b < 256) :
    binary 6 (a / 4) ++ (binary 6 (a % 4 * 16 + b / 16) ++ binary 6 (b % 16 * 4)) =
      binary 8 a ++ (binary 8 b ++ List.replicate 2 0) := by
  have hsecond := binary_second (b := b) (c := 0) (by decide)
  rw [Nat.zero_div, Nat.add_zero] at hsecond
  rw [← List.append_assoc, binary_first hb, List.append_assoc, hsecond]
  rfl

/-- Three bytes in four digits. -/
theorem binary_triple (hb : b < 256) (hc : c < 256) (bits : List Nat) :
    binary 6 (a / 4) ++ (binary 6 (a % 4 * 16 + b / 16) ++ (binary 6 (b % 16 * 4 + c / 64) ++
      (binary 6 (c % 64) ++ bits))) = binary 8 a ++ (binary 8 b ++ (binary 8 c ++ bits)) := by
  have hthird : binary 8 c = binary 2 (c / 64) ++ binary 6 (c % 64) := binary_div_mod 2 6 c
  rw [← List.append_assoc, binary_first hb, List.append_assoc, ← List.append_assoc (binary 4 _), binary_second hc,
    hthird, List.append_assoc, List.append_assoc]

end Groups

theorem spells_encodeChars (bytes : Bytes) : Spells (encodeChars bytes) bytes := by
  induction bytes using encodeChars.induct with
  | case1 => exact ⟨[], 0, 0, rfl, rfl, by decide, by decide, ⟨0, rfl⟩⟩
  | case2 a =>
    have ha := a.toNat_lt
    refine ⟨[⟨a.toNat / 4, by omega⟩, ⟨a.toNat % 4 * 16, by omega⟩], 4, 2, rfl, ?_, by decide, by decide, ⟨1, rfl⟩⟩
    simp only [List.flatMap_cons, List.flatMap_nil, List.append_nil, binary_single]
  | case3 a b =>
    have ha := a.toNat_lt
    have hb := b.toNat_lt
    refine ⟨[⟨a.toNat / 4, by omega⟩, ⟨a.toNat % 4 * 16 + b.toNat / 16, by omega⟩, ⟨b.toNat % 16 * 4, by omega⟩], 2, 1,
      rfl, ?_, by decide, by decide, ⟨1, rfl⟩⟩
    simp only [List.flatMap_cons, List.flatMap_nil, List.append_nil, List.append_assoc, binary_double hb]
  | case4 a b c rest ih =>
    have ha := a.toNat_lt
    have hb := b.toNat_lt
    have hc := c.toNat_lt
    obtain ⟨digits, zeros, pads, htext, hdigits⟩ := ih
    refine ⟨⟨a.toNat / 4, by omega⟩ :: ⟨a.toNat % 4 * 16 + b.toNat / 16, by omega⟩ ::
      ⟨b.toNat % 16 * 4 + c.toNat / 64, by omega⟩ :: ⟨c.toNat % 64, by omega⟩ :: digits, zeros, pads, ?_, ?_,
      hdigits.zeros_lt, hdigits.pads_lt, ?_⟩
    · have hlast : digit c.toNat = digit (c.toNat % 64) := by rw [digit, digit, Nat.mod_mod]
      rw [encodeChars, htext, hlast]
      rfl
    · simp only [List.flatMap_cons, hdigits.bits, List.append_assoc, binary_triple hb hc]
    · have hwhole := hdigits.whole
      simp only [List.length_cons]
      omega

theorem digit_of_value? {c : Char} {n : Nat} (h : value? c = some n) : digit n = c ∧ n < 64 := by
  obtain ⟨hn, hc, -⟩ := List.idxOf?_eq_some_iff.1 h
  have hlt : n < 64 := hn
  refine ⟨?_, hlt⟩
  rw [digit, Nat.mod_eq_of_lt hlt, List.getD_eq_getElem?_getD, List.getElem?_eq_getElem hn, hc, Option.getD_some]

theorem encodeChars_of_lastBytes? {i j : Nat} (hi : i < 64) (hj : j < 64)
    (h : lastBytes? i j none = some bytes) : encodeChars bytes = [digit i, digit j, '=', '='] := by
  obtain ⟨hzero, hbytes⟩ := Option.ite_none_right_eq_some.1 h
  cases hbytes
  have hfirst : (i * 4 + j / 16) / 4 = i := by omega
  have hsecond : (i * 4 + j / 16) % 4 * 16 = j := by omega
  have hsize : UInt8.size = 256 := rfl
  rw [encodeChars, UInt8.toNat_ofNat_of_lt' (by omega), hfirst, hsecond]

theorem encodeChars_of_lastBytes?_two {i j k : Nat} (hi : i < 64) (hj : j < 64) (hk : k < 64)
    (h : lastBytes? i j (some k) = some bytes) : encodeChars bytes = [digit i, digit j, digit k, '='] := by
  obtain ⟨hzero, hbytes⟩ := Option.ite_none_right_eq_some.1 h
  cases hbytes
  have hfirst : (i * 4 + j / 16) / 4 = i := by omega
  have hsecond : (i * 4 + j / 16) % 4 * 16 + (j % 16 * 16 + k / 4) / 16 = j := by omega
  have hthird : (j % 16 * 16 + k / 4) % 16 * 4 = k := by omega
  have hsize : UInt8.size = 256 := rfl
  rw [encodeChars, UInt8.toNat_ofNat_of_lt' (by omega), UInt8.toNat_ofNat_of_lt' (by omega), hfirst, hsecond, hthird]

theorem encodeChars_triple {i j k l : Nat} (hi : i < 64) (hj : j < 64) (hk : k < 64) (hl : l < 64) (rest : Bytes) :
    encodeChars (UInt8.ofNat (i * 4 + j / 16) :: UInt8.ofNat (j % 16 * 16 + k / 4) :: UInt8.ofNat (k % 4 * 64 + l) ::
      rest) = digit i :: digit j :: digit k :: digit l :: encodeChars rest := by
  have hfirst : (i * 4 + j / 16) / 4 = i := by omega
  have hsecond : (i * 4 + j / 16) % 4 * 16 + (j % 16 * 16 + k / 4) / 16 = j := by omega
  have hthird : (j % 16 * 16 + k / 4) % 16 * 4 + (k % 4 * 64 + l) / 64 = k := by omega
  have hlast : digit (k % 4 * 64 + l) = digit l := by
    rw [digit, digit, show (k % 4 * 64 + l) % 64 = l % 64 by omega]
  have hsize : UInt8.size = 256 := rfl
  rw [encodeChars, UInt8.toNat_ofNat_of_lt' (by omega), UInt8.toNat_ofNat_of_lt' (by omega),
    UInt8.toNat_ofNat_of_lt' (by omega), hfirst, hsecond, hthird, hlast]

/-- The reader takes nothing but what is written. -/
theorem encodeChars_of_decodeChars? (h : decodeChars? text = some bytes) : encodeChars bytes = text := by
  induction text using decodeChars?.induct generalizing bytes with
  | case1 =>
    cases h
    rfl
  | case2 a b =>
    simp only [decodeChars?, Option.bind_eq_bind, Option.bind_eq_some_iff] at h
    obtain ⟨i, ha, j, hb, hlast⟩ := h
    obtain ⟨rfl, hi⟩ := digit_of_value? ha
    obtain ⟨rfl, hj⟩ := digit_of_value? hb
    exact encodeChars_of_lastBytes? hi hj hlast
  | case3 a b c hpad =>
    simp only [decodeChars?.eq_3 a b c hpad, Option.bind_eq_bind, Option.bind_eq_some_iff] at h
    obtain ⟨i, ha, j, hb, k, hc, hlast⟩ := h
    obtain ⟨rfl, hi⟩ := digit_of_value? ha
    obtain ⟨rfl, hj⟩ := digit_of_value? hb
    obtain ⟨rfl, hk⟩ := digit_of_value? hc
    exact encodeChars_of_lastBytes?_two hi hj hk hlast
  | case4 a b c d rest hpads hpad ih =>
    simp only [decodeChars?.eq_4 a b c d rest hpads hpad, Option.bind_eq_bind, Option.bind_eq_some_iff, Option.pure_def,
      Option.some.injEq] at h
    obtain ⟨i, ha, j, hb, k, hc, l, hd, more, hmore, rfl⟩ := h
    obtain ⟨rfl, hi⟩ := digit_of_value? ha
    obtain ⟨rfl, hj⟩ := digit_of_value? hb
    obtain ⟨rfl, hk⟩ := digit_of_value? hc
    obtain ⟨rfl, hl⟩ := digit_of_value? hd
    rw [encodeChars_triple hi hj hk hl, ih hmore]
  | case5 text hnil hpads hpad hfour =>
    rw [decodeChars?.eq_5 text hnil hpads hpad hfour] at h
    cases h

theorem decodeChars?_eq_some_iff : decodeChars? text = some bytes ↔ Spells text bytes := by
  constructor
  · intro h
    rw [← encodeChars_of_decodeChars? h]
    exact spells_encodeChars bytes
  · intro h
    rw [h.unique (spells_encodeChars bytes)]
    exact decodeChars?_encodeChars bytes

theorem decode?_eq_some_iff {s : String} : decode? s = some bytes ↔ Spells s.toList bytes :=
  decodeChars?_eq_some_iff

theorem isBlank_digit (n : Nat) : Text.isBlank (digit n) = false := by
  have hdigits : ∀ d : Fin 64, Text.isBlank (alphabet.getD d.val 'A') = false := by decide
  exact hdigits ⟨n % 64, Nat.mod_lt _ (by decide)⟩

theorem Spells.isBlank_eq_false (h : Spells text bytes) : ∀ c ∈ text, Text.isBlank c = false := by
  obtain ⟨digits, zeros, pads, rfl, -⟩ := h
  intro c hc
  rcases List.mem_append.1 hc with hc | hc
  · obtain ⟨d, -, rfl⟩ := List.mem_map.1 hc
    exact isBlank_digit d
  · obtain rfl := List.eq_of_mem_replicate hc
    rfl

end Inventory.Base64
