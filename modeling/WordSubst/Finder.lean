import WordSubst.Pattern

namespace WordSubst

structure Finder where
  pattern : Pattern
  /-- Whether an occurrence has to start and to end at the edge of a word. -/
  boundary : Bool
  deriving DecidableEq

/-- The branches of every position, as bytes. -/
def Finder.slots (finder : Finder) : List (List Bytes) :=
  finder.pattern.positions.map fun position => position.branches.map utf8

structure Occurrence where
  start : Nat
  pieces : List Bytes
  deriving DecidableEq

namespace Occurrence

def text (occurrence : Occurrence) : Bytes :=
  occurrence.pieces.flatten

def stop (occurrence : Occurrence) : Nat :=
  occurrence.start + occurrence.text.length

/-- The spans of adjacent pieces, the first of which starts at `start`. -/
def spansFrom (start : Nat) : List Bytes → List (Nat × Nat)
  | [] => []
  | piece :: rest => (start, start + piece.length) :: spansFrom (start + piece.length) rest

def spans (occurrence : Occurrence) : List (Nat × Nat) :=
  spansFrom occurrence.start occurrence.pieces

end Occurrence

/-- Whether a byte belongs to a word: an ASCII digit, letter or underscore. -/
def isWordByte (byte : UInt8) : Bool :=
  (0x30 ≤ byte && byte ≤ 0x39) || (0x41 ≤ byte && byte ≤ 0x5A) || byte == 0x5F ||
    (0x61 ≤ byte && byte ≤ 0x7A)

/-- Which places of a text are edges, where `left` tells whether a word byte
stands before it. -/
def edgesAfter (left : Bool) : Bytes → List Bool
  | [] => [left]
  | byte :: rest => (left != isWordByte byte) :: edgesAfter (isWordByte byte) rest

def wordEdges (text : Bytes) : List Bool :=
  edgesAfter false text

@[simp] theorem length_edgesAfter (left : Bool) (text : Bytes) :
    (edgesAfter left text).length = text.length + 1 := by
  induction text generalizing left with
  | nil => rfl
  | cons byte rest ih => simp [edgesAfter, ih]

/-- The pieces that the positions take from one place on, if the pattern fits
there. -/
abbrev Way := Option (List Bytes)

/-- The way that is known where `branch` ends, if the text begins with it.  A way
is known for each place of the text. -/
def wayAfter : (branch text : Bytes) → (known : List Way) → Way
  | [], _, way :: _ => way
  | b :: branch, t :: text, _ :: known => if b = t then wayAfter branch text known else none
  | _, _, _ => none

theorem wayAfter_eq_some_iff {branch text : Bytes} {known : List Way} {pieces : List Bytes}
    (aligned : known.length = text.length + 1) :
    wayAfter branch text known = some pieces ↔
      branch <+: text ∧ known[branch.length]? = some (some pieces) := by
  induction branch generalizing text known with
  | nil =>
      cases known with
      | nil => simp at aligned
      | cons way known => simp [wayAfter]
  | cons b branch ih =>
      cases known with
      | nil => simp at aligned
      | cons way known =>
          cases text with
          | nil => simp [wayAfter]
          | cons t text =>
              simp only [List.length_cons, Nat.add_right_cancel_iff] at aligned
              by_cases same : b = t
              · simp [wayAfter, same, ih aligned]
              · simp [wayAfter, same]

/-- The preferred way from the beginning of the text: the first branch with a
way on. -/
def preferred (branches : List Bytes) (text : Bytes) (known : List Way) : Way :=
  branches.findSome? fun branch => (wayAfter branch text known).map (branch :: ·)

/-- The preferred way from each place of the text, given those through the
positions that follow. -/
def throughPosition (branches : List Bytes) : (text : Bytes) → (known : List Way) → List Way
  | [], known => [preferred branches [] known]
  | byte :: rest, known =>
    preferred branches (byte :: rest) known :: throughPosition branches rest known.tail

@[simp] theorem length_throughPosition (branches : List Bytes) (text : Bytes)
    (known : List Way) : (throughPosition branches text known).length = text.length + 1 := by
  induction text generalizing known with
  | nil => rfl
  | cons byte rest ih => simp [throughPosition, ih]

theorem getElem?_throughPosition {branches : List Bytes} {text : Bytes} {known : List Way}
    {place : Nat} (inside : place ≤ text.length) :
    (throughPosition branches text known)[place]? =
      some (preferred branches (text.drop place) (known.drop place)) := by
  induction place generalizing text known with
  | zero => cases text <;> rfl
  | succ place ih =>
      cases text with
      | nil => simp at inside
      | cons byte rest =>
          simp only [List.length_cons, Nat.add_le_add_iff_right] at inside
          simp [throughPosition, ih inside, List.drop_tail]

namespace Finder

/-- The places where an occurrence may start, and where it may end. -/
def gates (finder : Finder) (text : Bytes) : List Bool :=
  if finder.boundary then wordEdges text else List.replicate (text.length + 1) true

/-- The ways from which nothing is left to take: where an occurrence may end. -/
def ends (finder : Finder) (text : Bytes) : List Way :=
  (finder.gates text).map fun gate => if gate then some [] else none

/-- The ways from all places, before it is asked where an occurrence may start. -/
def ways (finder : Finder) (text : Bytes) : List Way :=
  finder.slots.foldr (fun branches known => throughPosition branches text known) (finder.ends text)

def hits (finder : Finder) (text : Bytes) : List Way :=
  (finder.gates text).zipWith (fun gate way => if gate then way else none) (finder.ways text)

@[simp] theorem length_gates (finder : Finder) (text : Bytes) :
    (finder.gates text).length = text.length + 1 := by
  unfold gates
  split <;> simp [wordEdges]

@[simp] theorem length_ends (finder : Finder) (text : Bytes) :
    (finder.ends text).length = text.length + 1 := by
  simp [ends]

@[simp] theorem length_ways (finder : Finder) (text : Bytes) :
    (finder.ways text).length = text.length + 1 := by
  unfold ways
  cases finder.slots <;> simp

@[simp] theorem length_hits (finder : Finder) (text : Bytes) :
    (finder.hits text).length = text.length + 1 := by
  simp [hits]

end Finder

/-- The occurrences among the ways of the places from `offset` on.  The first
`skip` places lie inside the occurrence before them; `touching` tells whether
the place after those is its end, where an empty occurrence is passed over. -/
def scan : (offset skip : Nat) → (touching : Bool) → List Way → List Occurrence
  | _, _, _, [] => []
  | offset, skip + 1, touching, _ :: later => scan (offset + 1) skip touching later
  | offset, 0, _, none :: later => scan (offset + 1) 0 false later
  | offset, 0, touching, some pieces :: later =>
    match pieces.flatten.length with
    | 0 =>
      if touching then scan (offset + 1) 0 false later
      else ⟨offset, pieces⟩ :: scan (offset + 1) 0 false later
    | length + 1 => ⟨offset, pieces⟩ :: scan (offset + 1) length true later

namespace Finder

/-- The occurrences from place `start` of the text on, as if nothing had been
found before it. -/
def findFrom (finder : Finder) (text : Bytes) (start : Nat) : List Occurrence :=
  scan start 0 false ((finder.hits text).drop start)

def find? (finder : Finder) (text : Bytes) (start : Nat) : Option Occurrence :=
  (finder.findFrom text start).head?

def findAll (finder : Finder) (text : Bytes) : List Occurrence :=
  finder.findFrom text 0

end Finder

def metacharacters : List Char :=
  ['\\', '.', '+', '*', '?', '(', ')', '|', '[', ']', '\x7b', '\x7d', '^', '$', '#', '&', '-', '~']

def regexLiteral (literal : String) : String :=
  String.ofList (literal.toList.flatMap fun c => if c ∈ metacharacters then ['\\', c] else [c])

def Position.regex (position : Position) : String :=
  "(" ++ String.intercalate "|" (position.branches.map regexLiteral) ++ ")"

def Pattern.regex (pattern : Pattern) : String :=
  String.join (pattern.positions.map Position.regex)

/-- The finder as a regular expression.  The word edges are asserted around the
whole, never between positions. -/
def Finder.regex (finder : Finder) : String :=
  if finder.boundary then "(?-u:\\b)(?:" ++ finder.pattern.regex ++ ")(?-u:\\b)"
  else finder.pattern.regex

end WordSubst
