namespace PushDelivery

structure RsaKey where
  modulus : Nat
  publicExponent : Nat
  privateExponent : Nat
  prime1 : Nat
  prime2 : Nat
  /-- The private exponent modulo the first prime less one. -/
  exponent1 : Nat
  exponent2 : Nat
  /-- The inverse of the second prime modulo the first one. -/
  inverse : Nat
deriving DecidableEq, Repr

namespace RsaKey

def bitLength (n : Nat) : Nat :=
  if n = 0 then 0 else n.log2 + 1

def isOdd (n : Nat) : Bool :=
  n % 2 == 1

/-- Moduli have 2048 to 4096 bits, and public exponents are odd and have 17 to 33. -/
def isStrong (k : RsaKey) : Bool :=
  isOdd k.modulus && 2040 < bitLength k.modulus && bitLength k.modulus ≤ 4096 &&
    isOdd k.publicExponent && 65537 ≤ k.publicExponent && bitLength k.publicExponent ≤ 33

def halfLength (k : RsaKey) : Nat :=
  (bitLength k.modulus + 1) / 2

/-- A prime of half the length, which is a multiple of 512 bits, and its exponent. That the number
is a prime is not checked. -/
def isFactor (k : RsaKey) (prime exponent : Nat) : Bool :=
  isOdd prime && bitLength prime == k.halfLength && bitLength prime % 512 == 0 &&
    isOdd exponent && exponent < prime

/-- Whether the inverse is one. Primes in the other order are swapped, and then it is not used. -/
def isInverted (k : RsaKey) : Bool :=
  k.prime1 < k.prime2 ||
    (k.inverse < k.prime1 && k.prime2 * k.inverse % k.prime1 == 1)

def isConsistent (k : RsaKey) : Bool :=
  k.isStrong && k.isFactor k.prime1 k.exponent1 && k.isFactor k.prime2 k.exponent2 &&
    k.prime1 * k.prime2 == k.modulus && isOdd k.privateExponent &&
    k.privateExponent < k.modulus && k.halfLength < bitLength k.privateExponent && k.isInverted

end RsaKey

end PushDelivery
