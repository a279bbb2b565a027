/-!
# Amplification

References can make a short document stand for an enormous one. So the bytes that a document has are
compared with those that its entities have given when they were read in place of references: past a
certain output, a document may not give more than a hundred times what it has.

An entity is charged in full when a reference to it is met. What has not been read of it yet is
given back only when the exact sum matters.
-/

namespace ViewMarkup.Xml

/-- The output below which nothing is compared, in bytes. -/
def amplificationThreshold : Nat := 8388608

/-- Whether a document may give so many bytes by its entities, when it has so many itself. The
quotient is rounded to single precision before it is compared with a hundred. -/
def isTolerated (direct expanded : Nat) : Bool :=
  let output := direct + expanded
  output < amplificationThreshold || output * 262144 ≤ direct * (100 * 262144 + 1)

/-- What the comparison needs to know of a document: a bound for its own bytes, how many of them
have been read, and how many bytes of entities have been charged but not read. -/
structure Meter where
  bound : Nat
  direct : Thunk Nat
  unread : Thunk Nat := Thunk.pure 0

/-- Whether reading may go on, of so many bytes charged; some of them may be unread. -/
def Meter.tolerates (m : Meter) (charged : Nat) (unread : Thunk Nat) : Bool :=
  m.bound + charged < amplificationThreshold ||
    isTolerated m.direct.get (charged - m.unread.get - unread.get)

/-- The meter inside of an entity, when so many bytes around it are unread. -/
def Meter.inside (m : Meter) (unread : Thunk Nat) : Meter :=
  { m with unread := Thunk.mk fun _ => m.unread.get + unread.get }

end ViewMarkup.Xml
