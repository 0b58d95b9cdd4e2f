import TurtlePlant.Scalar

/-!
# Colours

A colour is a red, a green and a blue part, between zero and one on every colour that is drawn. `Hls` is the same colour
as a hue, a lightness and a saturation; both ways between them are here, with the two places where a colour has no
saturation: its greatest and its least part add up to zero, or to two (`Rgb.toHls` then refuses to divide by zero).

- `Rgb.lerp`: the blend of two colours;
- `Rgb.toHls`, `Hls.toRgb`: the two readings of a colour;
- `Rgb.offsetLightness`: a colour with its lightness moved and kept in `[0, 1]`.
-/

namespace TurtlePlant

/-- A colour by its red, green and blue parts. -/
structure Rgb (R : Type) where
  red : R
  green : R
  blue : R
  deriving DecidableEq, Repr

/-- A colour by its hue, lightness and saturation. -/
structure Hls (R : Type) where
  hue : R
  lightness : R
  saturation : R
  deriving DecidableEq, Repr

variable {R : Type}

namespace Rgb

/-- The three parts in order. -/
def toList (c : Rgb R) : List R := [c.red, c.green, c.blue]

variable [Arith R]

/-- Parts that are the same numbers. -/
def same (c d : Rgb R) : Bool := c.red == d.red && c.green == d.green && c.blue == d.blue

/-- A colour in its stored form, refused when a part has none. -/
def settled? (c : Rgb R) : Except NumericFault (Rgb R) := do
  return ⟨← TurtlePlant.settled? c.red, ← TurtlePlant.settled? c.green, ← TurtlePlant.settled? c.blue⟩

/-- A colour given by three bytes. -/
def ofBytes (r g b : Nat) : Rgb R :=
  ⟨Arith.ofInt r / 255.0, Arith.ofInt g / 255.0, Arith.ofInt b / 255.0⟩

/-- The blend of two colours, part by part. -/
def lerp (a b : Rgb R) (t : R) : Rgb R :=
  ⟨TurtlePlant.lerp a.red b.red t, TurtlePlant.lerp a.green b.green t, TurtlePlant.lerp a.blue b.blue t⟩

/-- The greatest part. -/
def most (c : Rgb R) : R := upper (upper c.red c.green) c.blue

/-- The least part. -/
def least (c : Rgb R) : R := lower (lower c.red c.green) c.blue

/-- The saturation of a colour whose parts are not all equal: its spread against the largest spread that its lightness
allows. Of a light colour that is what its total leaves of two, and the total is rounded first, so two parts that add up to
almost two can leave nothing. -/
def saturation (c : Rgb R) : Except NumericFault R :=
  let spread := c.most - c.least
  let total := c.most + c.least
  if total / 2.0 ≤ 0.5 then divide? spread total else divide? spread (2.0 - total)

/-- The hue of a colour whose parts are not all equal: the sector of its greatest part, moved towards the larger of the
other two. -/
def hue (c : Rgb R) : Except NumericFault R := do
  let spread := c.most - c.least
  let r ← divide? (c.most - c.red) spread
  let g ← divide? (c.most - c.green) spread
  let b ← divide? (c.most - c.blue) spread
  let sector := if c.red == c.most then b - g else if c.green == c.most then 2.0 + r - b else 4.0 + g - r
  return Arith.fract (sector / 6.0)

/-- The hue, lightness and saturation of a colour. A colour with equal parts is grey. -/
def toHls (c : Rgb R) : Except NumericFault (Hls R) := do
  let lightness ← kept? ((c.most + c.least) / 2.0)
  if c.least == c.most then return ⟨0.0, lightness, 0.0⟩
  let saturation ← c.saturation
  let hue ← c.hue
  return ⟨hue, lightness, saturation⟩

end Rgb

namespace Hls

variable [Arith R]

/-- One part of a colour, by the distance of its hue on the circle: it rises over a sixth, stays for a third, falls over
a sixth, and stays. -/
def channel (low high hue : R) : R :=
  let h := Arith.fract hue
  if h < 1.0 / 6.0 then low + (high - low) * h * 6.0
  else if h < 0.5 then high
  else if h < 2.0 / 3.0 then low + (high - low) * (2.0 / 3.0 - h) * 6.0
  else low

/-- The greatest part of a colour. -/
def high (c : Hls R) : R :=
  if c.lightness ≤ 0.5 then c.lightness * (1.0 + c.saturation)
  else c.lightness + c.saturation - c.lightness * c.saturation

/-- The red, green and blue parts of a colour. -/
def toRgb (c : Hls R) : Rgb R :=
  if c.saturation == 0.0 then ⟨c.lightness, c.lightness, c.lightness⟩
  else
    let low := 2.0 * c.lightness - c.high
    ⟨channel low c.high (c.hue + 1.0 / 3.0), channel low c.high c.hue, channel low c.high (c.hue - 1.0 / 3.0)⟩

end Hls

/-- A colour with its lightness moved by an amount and kept in `[0, 1]`. -/
def Rgb.offsetLightness [Arith R] (c : Rgb R) (amount : R) : Except NumericFault (Rgb R) := do
  let hls ← c.toHls
  let lightness := lower (upper (← kept? (hls.lightness + amount)) 0.0) 1.0
  return Hls.toRgb { hls with lightness }

end TurtlePlant
