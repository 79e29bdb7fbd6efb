/-!
# Planar geometry of a surface

Points, axis-parallel rectangles and affine maps over double-precision coordinates. Every sum and
product is written in the order in which it is rounded; nothing here is fused or reassociated.
-/

namespace AccessBridge

/-- A point, or an offset between two points. -/
structure Point where
  x : Float
  y : Float
deriving Inhabited

/-- An axis-parallel rectangle given by two opposite corners. -/
structure Rect where
  x0 : Float
  y0 : Float
  x1 : Float
  y1 : Float
deriving Inhabited

/-- The smaller of two numbers; a NaN gives way to the other argument. -/
def lesser (a b : Float) : Float :=
  if a.isNaN then b else if b.isNaN then a else if b < a then b else a

/-- The larger of two numbers; a NaN gives way to the other argument. -/
def greater (a b : Float) : Float :=
  if a.isNaN then b else if b.isNaN then a else if a < b then b else a

namespace Rect

/-- Half-open containment: the edges through `(x0, y0)` belong to the rectangle, the edges
    through `(x1, y1)` do not. -/
def contains (r : Rect) (p : Point) : Bool :=
  decide (r.x0 ≤ p.x) && decide (p.x < r.x1) && decide (r.y0 ≤ p.y) && decide (p.y < r.y1)

/-- The rectangle moved by an offset. -/
def translate (r : Rect) (d : Point) : Rect :=
  ⟨r.x0 + d.x, r.y0 + d.y, r.x1 + d.x, r.y1 + d.y⟩

end Rect

/-- The affine map `(x, y) ↦ (a x + c y + e, b x + d y + f)`. -/
structure Transform where
  a : Float
  b : Float
  c : Float
  d : Float
  e : Float
  f : Float
deriving Inhabited

namespace Transform

/-- The map that moves nothing. -/
def identity : Transform := ⟨1, 0, 0, 1, 0, 0⟩

/-- The image of a point. -/
def apply (t : Transform) (p : Point) : Point :=
  ⟨t.a * p.x + t.c * p.y + t.e, t.b * p.x + t.d * p.y + t.f⟩

/-- The factor by which areas grow. -/
def determinant (t : Transform) : Float :=
  t.a * t.d - t.b * t.c

/-- Whether the map collapses the plane. A NaN determinant does not count as collapsed. -/
def isSingular (t : Transform) : Bool :=
  t.determinant == 0

/-- The inverse map, meaningful when the map is not singular. -/
def inverse (t : Transform) : Transform :=
  let i := 1 / t.determinant
  ⟨i * t.d, (-i) * t.b, (-i) * t.c, i * t.a, i * (t.c * t.f - t.d * t.e),
    i * (t.b * t.e - t.a * t.f)⟩

/-- The smallest axis-parallel rectangle around the image of a rectangle. -/
def boundingBox (t : Transform) (r : Rect) : Rect :=
  let p00 := t.apply ⟨r.x0, r.y0⟩
  let p01 := t.apply ⟨r.x0, r.y1⟩
  let p10 := t.apply ⟨r.x1, r.y0⟩
  let p11 := t.apply ⟨r.x1, r.y1⟩
  ⟨lesser (lesser p00.x p01.x) (lesser p10.x p11.x), lesser (lesser p00.y p01.y) (lesser p10.y p11.y),
    greater (greater p00.x p01.x) (greater p10.x p11.x),
    greater (greater p00.y p01.y) (greater p10.y p11.y)⟩

end Transform

end AccessBridge
