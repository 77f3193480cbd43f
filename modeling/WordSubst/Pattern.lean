import WordSubst.Error

namespace WordSubst

/-- One slot of a pattern: its alternatives, most preferred first. -/
structure Position where
  branches : List String
  deriving DecidableEq

structure Pattern where
  positions : List Position
  deriving DecidableEq

def Position.size (position : Position) : Nat :=
  position.branches.length

def Pattern.size (pattern : Pattern) : Nat :=
  pattern.positions.length

/-- Whether nothing could be taken from the pattern: it has no position, or one
of them has no branch. -/
def Pattern.isEmpty (pattern : Pattern) : Bool :=
  pattern.positions.isEmpty || pattern.positions.any fun position => position.branches.isEmpty

theorem Pattern.isEmpty_eq_false_iff {pattern : Pattern} :
    pattern.isEmpty = false ↔
      pattern.positions ≠ [] ∧ ∀ position ∈ pattern.positions, position.branches ≠ [] := by
  simp [isEmpty]

def isStructural (c : Char) : Bool :=
  c == '/' || c == ',' || c == '\\'

/-- A literal, written so that it is read back as a single branch. -/
def escapeLiteral (literal : String) : String :=
  String.ofList (literal.toList.flatMap fun c => if isStructural c then ['\\', c] else [c])

def Position.render (position : Position) : String :=
  String.intercalate "," (position.branches.map escapeLiteral)

def Pattern.render (pattern : Pattern) : String :=
  String.intercalate "/" (pattern.positions.map Position.render)

/-- The value of an ASCII digit, letters of either case counting from ten. -/
def digitValue? (c : Char) : Option UInt32 :=
  if '0' ≤ c ∧ c ≤ '9' then some (c.val - '0'.val)
  else if 'a' ≤ c ∧ c ≤ 'z' then some (c.val - 'a'.val + 10)
  else if 'A' ≤ c ∧ c ≤ 'Z' then some (c.val - 'A'.val + 10)
  else none

def digit? (radix : UInt32) (c : Char) : Option UInt32 :=
  (digitValue? c).filter (· < radix)

/-- Reads `count` digits onto `value`: the value if all of them were there, and
the text that was not read, which starts at the first character that is no
digit. -/
def readNumeral (radix : UInt32) : (count : Nat) → (value : UInt32) → List Char →
    Option UInt32 × List Char
  | 0, value, text => (some value, text)
  | _ + 1, _, [] => (none, [])
  | count + 1, value, c :: rest =>
    match digit? radix c with
    | some digit => readNumeral radix count (value * radix + digit) rest
    | none => (none, c :: rest)

theorem readNumeral_length_le (radix : UInt32) (count : Nat) (value : UInt32)
    (text : List Char) : (readNumeral radix count value text).2.length ≤ text.length := by
  induction count generalizing value text with
  | zero => simp [readNumeral]
  | succ count ih =>
      cases text with
      | nil => simp [readNumeral]
      | cons c rest =>
          cases found : digit? radix c with
          | none => simp [readNumeral, found]
          | some digit =>
              simp only [readNumeral, found, List.length_cons]
              exact Nat.le_succ_of_le (ih _ _)

def scalar? (code : UInt32) : Option Char :=
  if valid : code.isValidChar then some ⟨code, valid⟩ else none

inductive EscapeFault where
  | trailing
  /-- `\x` is not followed by the code of an ASCII character. -/
  | twoHex
  /-- `\u` is not followed by the code of a character. -/
  | fourHex
  /-- `\U` is not followed by the code of a character. -/
  | eightHex
  /-- An octal digit does not begin the code of an ASCII character. -/
  | octal
  deriving DecidableEq

def EscapeFault.reason : EscapeFault → String
  | trailing => "trailing backslash"
  | twoHex => "\\x needs two hex digits no greater than 7f"
  | fourHex => "\\u needs four hex digits naming a valid character"
  | eightHex => "\\U needs eight hex digits naming a valid character"
  | octal => "octal escape needs three digits no greater than 177"

structure NumberForm where
  fault : EscapeFault
  radix : UInt32
  count : Nat
  start : UInt32
  limit : UInt32
  deriving DecidableEq

def numberForm? (c : Char) : Option NumberForm :=
  if c = 'x' then some ⟨.twoHex, 16, 2, 0, 0x7F⟩
  else if c = 'u' then some ⟨.fourHex, 16, 4, 0, 0x10FFFF⟩
  else if c = 'U' then some ⟨.eightHex, 16, 8, 0, 0x10FFFF⟩
  else (digit? 8 c).map fun first => ⟨.octal, 8, 2, first, 0x7F⟩

def control? (c : Char) : Option Char :=
  if c = 'a' then some '\x07'
  else if c = 'b' then some '\x08'
  else if c = 'f' then some '\x0C'
  else if c = 'n' then some '\n'
  else if c = 'r' then some '\r'
  else if c = 't' then some '\t'
  else if c = 'v' then some '\x0B'
  else none

/-- Reads the digits of a form: the character named, and the text after it. -/
def NumberForm.read (form : NumberForm) (text : List Char) :
    Except EscapeFault (Char × List Char) :=
  match readNumeral form.radix form.count form.start text with
  | (some code, rest) =>
    match if code ≤ form.limit then scalar? code else none with
    | some c => .ok (c, rest)
    | none => .error form.fault
  | (none, _) => .error form.fault

/-- Reads the escape whose backslash stands just before `text`: the character it
stands for, and the text after it. -/
def readEscape : (text : List Char) → Except EscapeFault (Char × List Char)
  | [] => .error .trailing
  | c :: rest =>
    match control? c, numberForm? c with
    | some control, _ => .ok (control, rest)
    | none, some form => form.read rest
    | none, none => .ok (c, rest)

theorem NumberForm.read_length_le {form : NumberForm} {text left : List Char} {c : Char}
    (read : form.read text = .ok (c, left)) : left.length ≤ text.length := by
  have shorter := readNumeral_length_le form.radix form.count form.start text
  unfold NumberForm.read at read
  split at read
  · rename_i code rest found
    rw [found] at shorter
    split at read
    · cases read
      exact shorter
    · cases read
  · cases read

theorem readEscape_length_lt {text left : List Char} {c : Char}
    (read : readEscape text = .ok (c, left)) : left.length < text.length := by
  cases text with
  | nil => cases read
  | cons first rest =>
      cases control : control? first with
      | some named =>
          simp only [readEscape, control, Except.ok.injEq, Prod.mk.injEq] at read
          simp [← read.2]
      | none =>
          cases numeric : numberForm? first with
          | some form =>
              simp only [readEscape, control, numeric] at read
              exact Nat.lt_succ_of_le (NumberForm.read_length_le read)
          | none =>
              simp only [readEscape, control, numeric, Except.ok.injEq, Prod.mk.injEq] at read
              simp [← read.2]

inductive Token where
  | slash
  | comma
  | char (c : Char)
  deriving DecidableEq

/-- A malformed escape: its fault, and the text from its backslash on. -/
structure MalformedEscape where
  fault : EscapeFault
  onward : List Char
  deriving DecidableEq

/-- Reads the token that begins with `c`: the token, and the text after it. -/
def Token.read (c : Char) (rest : List Char) : Except EscapeFault (Token × List Char) :=
  if c = '\\' then (readEscape rest).map fun (value, left) => (.char value, left)
  else if c = '/' then .ok (.slash, rest)
  else if c = ',' then .ok (.comma, rest)
  else .ok (.char c, rest)

theorem Token.read_length_le {c : Char} {rest left : List Char} {token : Token}
    (read : Token.read c rest = .ok (token, left)) : left.length ≤ rest.length := by
  unfold Token.read at read
  split at read
  · cases escape : readEscape rest with
    | error fault => simp [escape, Except.map] at read
    | ok value =>
        simp only [escape, Except.map, Except.ok.injEq, Prod.mk.injEq] at read
        rw [← read.2]
        exact Nat.le_of_lt (readEscape_length_lt escape)
  · split at read
    · cases read
      exact Nat.le_refl _
    · split at read <;> cases read <;> exact Nat.le_refl _

def tokenize : (text : List Char) → Except MalformedEscape (List Token)
  | [] => .ok []
  | c :: rest =>
    match _ : Token.read c rest with
    | .error fault => .error ⟨fault, c :: rest⟩
    | .ok (token, left) => (tokenize left).map (token :: ·)
termination_by text => text.length
decreasing_by exact Nat.lt_succ_of_le (Token.read_length_le (by assumption))

@[simp] theorem tokenize_nil : tokenize [] = .ok [] := by
  rw [tokenize]

theorem tokenize_cons_of_error {c : Char} {rest : List Char} {fault : EscapeFault}
    (read : Token.read c rest = .error fault) :
    tokenize (c :: rest) = .error ⟨fault, c :: rest⟩ := by
  rw [tokenize]
  split <;> simp_all

theorem tokenize_cons_of_ok {c : Char} {rest left : List Char} {token : Token}
    (read : Token.read c rest = .ok (token, left)) :
    tokenize (c :: rest) = (tokenize left).map (token :: ·) := by
  rw [tokenize]
  split <;> simp_all

def Token.char? : Token → Option Char
  | char c => some c
  | slash | comma => none

def branchOfTokens (tokens : List Token) : String :=
  String.ofList (tokens.filterMap Token.char?)

def Position.ofTokens (tokens : List Token) : Position :=
  ⟨(tokens.splitOn .comma).map branchOfTokens⟩

def Pattern.ofTokens (tokens : List Token) : Pattern :=
  ⟨(tokens.splitOn .slash).map Position.ofTokens⟩

def byteSize (text : List Char) : Nat :=
  (encodeChars text).length

/-- Reads an expression.  A malformed escape is reported by the byte offset of
its backslash: the bytes of the whole expression less those from there on. -/
def Pattern.parse (expr : String) : Except Error Pattern :=
  match tokenize expr.toList with
  | .ok tokens => .ok (.ofTokens tokens)
  | .error malformed =>
    .error (.malformedEscape expr (byteSize expr.toList - byteSize malformed.onward)
      malformed.fault.reason)

/-- What is read has a position, and no position without a branch. -/
theorem Pattern.isEmpty_of_parse {expr : String} {pattern : Pattern}
    (read : Pattern.parse expr = .ok pattern) : pattern.isEmpty = false := by
  rw [Pattern.isEmpty_eq_false_iff]
  unfold Pattern.parse at read
  split at read
  · cases read
    refine ⟨by simp [Pattern.ofTokens, List.splitOn_ne_nil], fun position listed => ?_⟩
    obtain ⟨tokens, _, rfl⟩ := List.mem_map.mp listed
    simp [Position.ofTokens, List.splitOn_ne_nil]
  · cases read

end WordSubst
