import PushDelivery.Crypto.Modular

namespace PushDelivery

/-- A point as a numerator for each coordinate and a common denominator. -/
structure Weighted (m : Nat) where
  x : Fin m
  y : Fin m
  z : Fin m

namespace Weighted

open PushDelivery.Modular

variable {m : Nat}

def isInfinity (p : Weighted m) : Bool :=
  p.z.val == 0

/-- Infinity, with the numerators of another point. -/
def toInfinity (p : Weighted m) : Weighted m :=
  ⟨p.x, p.y, scale 0 p.z⟩

def double (p : Weighted m) : Weighted m :=
  let delta := p.z * p.z
  let gamma := p.y * p.y
  let beta := p.x * gamma
  let alpha := scale 3 ((p.x - delta) * (p.x + delta))
  let x := alpha * alpha - scale 8 beta
  ⟨x, alpha * (scale 4 beta - x) - scale 8 (gamma * gamma), scale 2 (p.y * p.z)⟩

def add (p q : Weighted m) : Weighted m :=
  if p.isInfinity then q
  else if q.isInfinity then p
  else
    let pp := p.z * p.z
    let qq := q.z * q.z
    let u := p.x * qq
    let s := p.y * q.z * qq
    let h := q.x * pp - u
    let r := q.y * p.z * pp - s
    if h.val = 0 then if r.val = 0 then double p else p.toInfinity
    else
      let hh := h * h
      let hhh := h * hh
      let v := u * hh
      let x := r * r - hhh - scale 2 v
      ⟨x, r * (v - x) - s * hhh, h * p.z * q.z⟩

/-- The sum of `k` copies of a point, where `k` has so many binary digits. -/
def times (count k : Nat) (p : Weighted m) : Weighted m :=
  (digits count k).foldl (fun acc bit => if bit then add (double acc) p else double acc)
    p.toInfinity

def isPoint (x y : Fin m) (p : Weighted m) : Bool :=
  let zz := p.z * p.z
  !p.isInfinity && x * zz == p.x && y * (p.z * zz) == p.y

end Weighted

end PushDelivery
