namespace PushDelivery.Text.Utf8

/-- One to four bytes, by the size of the code point. -/
def encodeChar (c : Char) : List UInt8 :=
  let n := c.toNat
  if n < 0x80 then [UInt8.ofNat n]
  else if n < 0x800 then [UInt8.ofNat (0xC0 + n / 64), UInt8.ofNat (0x80 + n % 64)]
  else if n < 0x10000 then
    [UInt8.ofNat (0xE0 + n / 4096), UInt8.ofNat (0x80 + n / 64 % 64), UInt8.ofNat (0x80 + n % 64)]
  else
    [UInt8.ofNat (0xF0 + n / 262144), UInt8.ofNat (0x80 + n / 4096 % 64),
      UInt8.ofNat (0x80 + n / 64 % 64), UInt8.ofNat (0x80 + n % 64)]

def encode (cs : List Char) : List UInt8 :=
  cs.flatMap encodeChar

/-- The six bits a continuation byte carries. -/
def tail? (b : UInt8) : Option Nat :=
  if 0x80 ≤ b.toNat ∧ b.toNat < 0xC0 then some (b.toNat - 0x80) else none

/-- A code point, refused when a shorter form exists for it or when it is no scalar value. -/
def scalar? (least n : Nat) : Option Char :=
  if least ≤ n ∧ (n < 0xD800 ∨ 0xDFFF < n ∧ n < 0x110000) then some (Char.ofNat n) else none

/-- The first character of a byte sequence and the number of bytes it takes. -/
def first? : List UInt8 → Option (Char × Nat)
  | [] => none
  | b :: rest =>
    let n := b.toNat
    if n < 0x80 then (scalar? 0 n).map (·, 1)
    else if n < 0xC0 then none
    else if n < 0xE0 then
      match rest with
      | b₁ :: _ => do
        let t₁ ← tail? b₁
        (scalar? 0x80 ((n - 0xC0) * 64 + t₁)).map (·, 2)
      | _ => none
    else if n < 0xF0 then
      match rest with
      | b₁ :: b₂ :: _ => do
        let t₁ ← tail? b₁
        let t₂ ← tail? b₂
        (scalar? 0x800 ((n - 0xE0) * 4096 + t₁ * 64 + t₂)).map (·, 3)
      | _ => none
    else if n < 0xF8 then
      match rest with
      | b₁ :: b₂ :: b₃ :: _ => do
        let t₁ ← tail? b₁
        let t₂ ← tail? b₂
        let t₃ ← tail? b₃
        (scalar? 0x10000 ((n - 0xF0) * 262144 + t₁ * 4096 + t₂ * 64 + t₃)).map (·, 4)
      | _ => none
    else none

/-- Reads characters and skips `skip` bytes that the last one has already used. -/
def scanFrom : Nat → List UInt8 → List (Option Char)
  | _, [] => []
  | skip + 1, _ :: rest => scanFrom skip rest
  | 0, b :: rest =>
    match first? (b :: rest) with
    | some (c, n) => some c :: scanFrom (n - 1) rest
    | none => none :: scanFrom 0 rest

/-- The characters of a byte sequence, with `none` for a byte that belongs to no character. -/
def scan (bytes : List UInt8) : List (Option Char) :=
  scanFrom 0 bytes

/-- The text, when every byte belongs to a character of it. -/
def decode? (bytes : List UInt8) : Option (List Char) :=
  (scan bytes).mapM id

end PushDelivery.Text.Utf8
