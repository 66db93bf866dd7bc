/-
# Reading patterns

The notation of regular expressions: alternatives `|`, groups `(…)`, `(?:…)`, `(?<name>…)`, flags
`(?imsUxR-…)`, repetitions `?`, `*`, `+`, `{n}`, `{n,}`, `{n,m}`, classes `[…]` and `[:name:]`,
escapes and the assertions `^`, `$`, `\A`, `\z`, `\b`, `\B`, `\<`, `\>`.  Case and the named classes
are those of ASCII.  Look-around, back-references, Unicode classes and operations on classes are
refused.

The reader goes once over the text.  A group that is still open is kept on a stack (`Open`), so one
loop reads patterns of any nesting; `compile` then bounds the nesting of the tree and the bytes that
it is charged for.
-/
import GraphQuery.Pattern.Basic
import GraphQuery.Text.Alphabetic

namespace GraphQuery.Pattern

/-! ## 1. What can be wrong -/

/-- Why a text is no pattern. -/
inductive Fault where
  | tooMuchNesting
  | tooLarge
  | repeatedGroupName
  | unclosedGroup
  | unfinishedGroup
  | unopenedGroup
  | lookAround
  | emptyFlags
  | missingGroupName
  | badGroupName
  | unclosedGroupName
  | emptyGroupName
  | unknownFlag
  | repeatedNegation
  | repeatedFlag
  | unfinishedFlags
  | danglingNegation
  | missingCount
  | badCount
  | unfinishedHex
  | emptyHex
  | badHexDigit
  | badHexValue
  | unfinishedEscape
  | backReference
  | unicodeClass
  | unknownEscape
  | nothingToRepeat
  | nothingToCount
  | unclosedCount
  | badCountEnd
  | countsOutOfOrder
  | unclosedClass
  | badRangeEnd
  | badClassItem
  | rangeOutOfOrder
  | nestedClass
  | classOperation
  | unclosedBoundary
  | unknownBoundary
  deriving DecidableEq, Repr

/-- The wording of a fault. -/
def Fault.message : Fault → String
  | tooMuchNesting => "pattern has too much nesting"
  | tooLarge => "compiled regex exceeded size limit"
  | repeatedGroupName => "duplicate capture group name"
  | unclosedGroup => "found open group without closing ')'"
  | unfinishedGroup => "expected closing ')', but got end of pattern"
  | unopenedGroup => "found closing ')' without matching '('"
  | lookAround => "look-around is not supported"
  | emptyFlags => "empty flag directive '(?)' is not allowed"
  | missingGroupName => "expected capture group name, but got end of pattern"
  | badGroupName => "invalid group name"
  | unclosedGroupName => "expected end of capture group name, but got end of pattern"
  | emptyGroupName => "empty capture group names are not allowed"
  | unknownFlag => "unrecognized inline flag"
  | repeatedNegation => "inline flag negation cannot be repeated"
  | repeatedFlag => "duplicate inline flag is not allowed"
  | unfinishedFlags => "expected ':' or ')' to end inline flags, but got end of pattern"
  | danglingNegation => "inline flags cannot end with negation directive"
  | missingCount => "expected decimal number, but found no digits"
  | badCount => "got invalid decimal number"
  | unfinishedHex => "expected hexadecimal number, but got end of pattern"
  | emptyHex => "hex brace escape sequence cannot be empty"
  | badHexDigit => "invalid hexadecimal digit"
  | badHexValue => "hexadecimal number is not a Unicode scalar value"
  | unfinishedEscape => "expected escape sequence, but got end of pattern"
  | backReference => "backreferences are not supported"
  | unicodeClass => "Unicode character classes are not supported"
  | unknownEscape => "unrecognized escape sequence"
  | nothingToRepeat => "uncounted repetition operator must be applied to a sub-expression"
  | nothingToCount => "counted repetition operator must be applied to a sub-expression"
  | unclosedCount => "found unclosed counted repetition operator"
  | badCountEnd => "expected closing brace for counted repetition, but got something else"
  | countsOutOfOrder => "found counted repetition with a min bigger than its max"
  | unclosedClass => "found unclosed character class"
  | badRangeEnd => "character class ranges must start and end with a single character"
  | badClassItem => "invalid escape sequence in character class"
  | rangeOutOfOrder => "invalid range in character class"
  | nestedClass => "nested character classes are not supported"
  | classOperation => "operations on character classes are not supported"
  | unclosedBoundary => "special word boundary assertion is unclosed or has an invalid character"
  | unknownBoundary => "unrecognized special word boundary assertion"

/-! ## 2. Flags and blanks -/

/-- The flags in force at a place of the text. -/
structure Flags where
  ignoreCase : Bool := false
  multiLine : Bool := false
  dotAll : Bool := false
  crlf : Bool := false
  verbose : Bool := false
  deriving DecidableEq, Repr

/-- The blanks between the parts of a verbose pattern. -/
def isBlank (c : Char) : Bool :=
  let n := c.toNat
  decide ((0x09 ≤ n ∧ n ≤ 0x0D) ∨ n = 0x20 ∨ n = 0x85 ∨ n = 0xA0 ∨ n = 0x1680 ∨
    (0x2000 ≤ n ∧ n ≤ 0x200A) ∨ n = 0x2028 ∨ n = 0x2029 ∨ n = 0x202F ∨ n = 0x205F ∨ n = 0x3000)

/-- The text after blanks and comments; `inComment` says that a comment has begun. -/
def skipComments (inComment : Bool) : List Char → List Char
  | [] => []
  | c :: rest =>
    if inComment then skipComments (c != '\n') rest
    else if isBlank c then skipComments false rest
    else if c = '#' then skipComments true rest
    else c :: rest

/-- The text after what a verbose pattern may hold between its parts. -/
def skip (flags : Flags) (cs : List Char) : List Char :=
  if flags.verbose then skipComments false cs else cs

/-- The next character that counts after the current one, found without taking comments apart: the
first that is neither blank nor the mark of a comment. -/
def peekPast (commentSeen : Bool) : List Char → Option Char
  | [] => none
  | c :: rest =>
    if isBlank c then peekPast commentSeen rest
    else if c = '#' ∧ ¬ commentSeen then peekPast true rest
    else some c

/-- The next character that counts. -/
def peek (flags : Flags) (cs : List Char) : Option Char :=
  if flags.verbose then (peekPast false cs).or cs.head? else cs.head?

/-! ## 3. Single characters and escapes -/

/-- A character, in either case if case is ignored. -/
def ofChar (flags : Flags) (c : Char) : Pattern :=
  if flags.ignoreCase ∧ c.isAlpha then
    cls (CharRanges.foldCase [CharRanges.single c])
  else char c

/-- The value of a hexadecimal digit. -/
def hexDigit? (c : Char) : Option Nat :=
  if c.isDigit then some (c.toNat - '0'.toNat)
  else if 'a' ≤ c ∧ c ≤ 'f' then some (c.toNat - 'a'.toNat + 10)
  else if 'A' ≤ c ∧ c ≤ 'F' then some (c.toNat - 'A'.toNat + 10)
  else none

/-- The character of a code point, unless it is half of a surrogate pair or too great. -/
def scalar? (n : Nat) : Option Char :=
  if n < 0xD800 ∨ (0xE000 ≤ n ∧ n ≤ 0x10FFFF) then some (Char.ofNat n) else none

/-- The character that the digits of a hexadecimal escape name. -/
def hexChar (flags : Flags) (n : Nat) (rest : List Char) : Except Fault (Pattern × List Char) :=
  match scalar? n with
  | some c => .ok (ofChar flags c, rest)
  | none => .error .badHexValue

/-- A hexadecimal escape of a fixed number of digits. -/
def hexFixed (flags : Flags) : Nat → Nat → List Char → Except Fault (Pattern × List Char)
  | 0, n, cs => hexChar flags n cs
  | _ + 1, _, [] => .error .unfinishedHex
  | more + 1, n, c :: rest =>
    match hexDigit? c with
    | none => .error .badHexDigit
    | some d => hexFixed flags more (n * 16 + d) (skip flags rest)

/-- A hexadecimal escape in braces, after the opening one. -/
def hexBraced (flags : Flags) : Nat → Nat → Nat → List Char → Except Fault (Pattern × List Char)
  | 0, _, _, _ => .error .unfinishedHex
  | fuel + 1, digits, n, cs =>
    match cs with
    | [] => .error .unfinishedHex
    | '\x7d' :: rest =>
      if digits = 0 then .error .emptyHex else hexChar flags n (skip flags rest)
    | c :: rest =>
      match hexDigit? c with
      | none => .error .badHexDigit
      | some d => hexBraced flags fuel (digits + 1) (n * 16 + d) (skip flags rest)

/-- A hexadecimal escape after its letter. -/
def hexEscape (flags : Flags) (digits : Nat) (rest : List Char) :
    Except Fault (Pattern × List Char) :=
  match skip flags rest with
  | [] => .error .unfinishedHex
  | '\x7b' :: rest => hexBraced flags (rest.length + 1) 0 0 (skip flags rest)
  | cs => hexFixed flags digits 0 cs

/-- The characters that may follow a backslash to stand for themselves: those of ASCII but letters,
digits and the angle brackets. -/
def standsForItself (c : Char) : Bool :=
  decide (c.toNat < 0x80) && !c.isAlphanum && c != '<' && c != '>'

/-- The assertions that are written in braces after `\b`. -/
def boundaryNamed? : String → Option Place
  | "start" => some .wordStart
  | "end" => some .wordEnd
  | "start-half" => some .wordStartHalf
  | "end-half" => some .wordEndHalf
  | _ => none

/-- The letters of a word boundary's name. -/
def isBoundaryLetter (c : Char) : Bool := c.isAlpha || c == '-'

/-- The name of a word boundary up to what ends it, its letters so far in reverse. -/
def boundaryName (flags : Flags) : Nat → List Char → List Char → List Char × List Char
  | 0, acc, cs => (acc.reverse, cs)
  | fuel + 1, acc, cs =>
    match cs with
    | c :: rest =>
      if isBoundaryLetter c then boundaryName flags fuel (c :: acc) (skip flags rest)
      else (acc.reverse, cs)
    | [] => (acc.reverse, [])

/-- What follows `\b`: a named boundary in braces, unless the brace opens a count. -/
def wordBoundaryEscape (flags : Flags) (cs : List Char) : Except Fault (Pattern × List Char) :=
  match cs with
  | '\x7b' :: rest =>
    match skip flags rest with
    | [] => .error .unclosedBoundary
    | c :: inner =>
      if !isBoundaryLetter c then .ok (place .wordBoundary, cs)
      else
        match boundaryName flags (inner.length + 1) [] (c :: inner) with
        | (name, '\x7d' :: rest) =>
          match boundaryNamed? (String.ofList name) with
          | some p => .ok (place p, rest)
          | none => .error .unknownBoundary
        | _ => .error .unclosedBoundary
  | _ => .ok (place .wordBoundary, cs)

/-- An escape after its backslash. -/
def escape (flags : Flags) : List Char → Except Fault (Pattern × List Char)
  | [] => .error .unfinishedEscape
  | c :: rest =>
    match c with
    | 'd' => .ok (cls CharRanges.digit, rest)
    | 'D' => .ok (cls CharRanges.digit.complement, rest)
    | 's' => .ok (cls CharRanges.space, rest)
    | 'S' => .ok (cls CharRanges.space.complement, rest)
    | 'w' => .ok (cls CharRanges.word, rest)
    | 'W' => .ok (cls CharRanges.word.complement, rest)
    | 'x' => hexEscape flags 2 rest
    | 'u' => hexEscape flags 4 rest
    | 'U' => hexEscape flags 8 rest
    | 'p' | 'P' => .error .unicodeClass
    | 'a' => .ok (ofChar flags '\x07', rest)
    | 'f' => .ok (ofChar flags '\x0c', rest)
    | 't' => .ok (ofChar flags '\t', rest)
    | 'n' => .ok (ofChar flags '\n', rest)
    | 'r' => .ok (ofChar flags '\r', rest)
    | 'v' => .ok (ofChar flags '\x0b', rest)
    | 'A' => .ok (place .textStart, rest)
    | 'z' => .ok (place .textEnd, rest)
    | 'b' => wordBoundaryEscape flags rest
    | 'B' => .ok (place .noWordBoundary, rest)
    | '<' => .ok (place .wordStart, rest)
    | '>' => .ok (place .wordEnd, rest)
    | c =>
      if c.isDigit then .error .backReference
      else if standsForItself c then .ok (ofChar flags c, rest)
      else .error .unknownEscape

/-! ## 4. Classes -/

/-- A named class at an opening bracket inside a class, if one stands there. -/
def namedClass? (cs : List Char) : Option (CharRanges × List Char) :=
  match cs with
  | ':' :: rest =>
    let (negated, rest) : Bool × List Char :=
      match rest with
      | '^' :: rest => (true, rest)
      | _ => (false, rest)
    match rest.dropWhile (· != ':') with
    | ':' :: ']' :: tail =>
      match CharRanges.named? (String.ofList (rest.takeWhile (· != ':'))) with
      | some rs => some (if negated then rs.complement else rs, tail)
      | none => none
    | _ => none
  | _ => none

/-- One item of a class: a character as it stands or an escape. -/
def classItem (flags : Flags) : List Char → Except Fault (Pattern × List Char)
  | [] => .error .unclosedClass
  | '\\' :: rest => escape flags rest
  | c :: rest => .ok (char c, rest)

/-- The ranges that an item adds to a class. -/
def itemRanges : Pattern → Except Fault (List (Nat × Nat))
  | char c => .ok [CharRanges.single c]
  | cls rs => .ok rs
  | _ => .error .badClassItem

/-- The character that an item gives to the end of a range. -/
def rangeEnd : Pattern → Except Fault Char
  | char c => .ok c
  | _ => .error .badRangeEnd

/-- An item of a class, or a range between two. -/
def classRange (flags : Flags) (cs : List Char) : Except Fault (List (Nat × Nat) × List Char) := do
  let (first, rest) ← classItem flags cs
  match skip flags rest with
  | [] => .error .unclosedClass
  | '-' :: rest =>
    if peek flags rest = some ']' ∨ peek flags rest = some '-' then
      return (← itemRanges first, '-' :: rest)
    else
      match skip flags rest with
      | [] => .error .unclosedClass
      | rest =>
        let (last, rest) ← classItem flags rest
        let a ← rangeEnd first
        let b ← rangeEnd last
        if b < a then .error .rangeOutOfOrder else return ([CharRanges.between a b], rest)
  | rest => return (← itemRanges first, rest)

/-- The ranges of a class up to its end, in front of those read before; their order is of no
importance. -/
def classItems (flags : Flags) : Nat → List (Nat × Nat) → List Char →
    Except Fault (List (Nat × Nat) × List Char)
  | 0, _, _ => .error .unclosedClass
  | fuel + 1, acc, cs =>
    match skip flags cs with
    | [] => .error .unclosedClass
    | '[' :: rest =>
      match namedClass? rest with
      | some (rs, rest) => classItems flags fuel (rs ++ acc) rest
      | none => .error .nestedClass
    | ']' :: rest => .ok (acc, rest)
    | '&' :: '&' :: _ | '-' :: '-' :: _ | '~' :: '~' :: _ => .error .classOperation
    | cs => do
      let (rs, rest) ← classRange flags cs
      classItems flags fuel (rs ++ acc) rest

/-- The hyphens at the start of a class, which stand for themselves. -/
def leadingHyphens (flags : Flags) : Nat → List (Nat × Nat) → List Char →
    Except Fault (List (Nat × Nat) × List Char)
  | 0, _, _ => .error .unclosedClass
  | fuel + 1, acc, cs =>
    match cs with
    | [] => .error .unclosedClass
    | '-' :: rest => leadingHyphens flags fuel (CharRanges.single '-' :: acc) (skip flags rest)
    | cs => .ok (acc, cs)

/-- A class after its opening bracket.  A closing bracket in first place stands for itself.  Case is
folded before the class is negated. -/
def classBody (flags : Flags) (cs : List Char) : Except Fault (Pattern × List Char) := do
  let (negated, cs) : Bool × List Char :=
    match skip flags cs with
    | '^' :: rest => (true, skip flags rest)
    | cs => (false, cs)
  let fuel := cs.length + 1
  let (acc, cs) ← leadingHyphens flags fuel [] cs
  let (acc, cs) : List (Nat × Nat) × List Char :=
    match acc, cs with
    | [], ']' :: rest => ([CharRanges.single ']'], skip flags rest)
    | _, _ => (acc, cs)
  let (items, rest) ← classItems flags fuel acc cs
  let rs := CharRanges.ofList items
  let rs := if flags.ignoreCase then rs.foldCase else rs
  return (cls (if negated then rs.complement else rs), rest)

/-! ## 5. Repetitions -/

/-- A mark for as few repetitions as possible changes nothing about what matches. -/
def skipLazyMark : List Char → List Char
  | '?' :: rest => rest
  | cs => cs

/-- The digits of a count and the rest, the value so far given. -/
def countDigits (flags : Flags) : Nat → Option Nat → List Char → Option Nat × List Char
  | 0, n, cs => (n, cs)
  | fuel + 1, n, cs =>
    match cs with
    | c :: rest =>
      if c.isDigit then
        countDigits flags fuel (some (n.getD 0 * 10 + (c.toNat - '0'.toNat))) (skip flags rest)
      else (n, cs)
    | [] => (n, [])

/-- A count below `2 ^ 32`, with blanks around it. -/
def count (flags : Flags) (cs : List Char) : Except Fault (Nat × List Char) :=
  let cs := cs.dropWhile isBlank
  let (n, rest) := countDigits flags (cs.length + 1) none cs
  match n with
  | none => .error .missingCount
  | some n => if n < UInt32.size then .ok (n, rest.dropWhile isBlank) else .error .badCount

/-- The bounds of a counted repetition after its opening brace. -/
def counts (flags : Flags) (cs : List Char) :
    Except Fault (Nat × Option Nat × List Char) := do
  match skip flags cs with
  | [] => .error .unclosedCount
  | cs =>
    let (least, rest) ← count flags cs
    let (most, rest) : Option Nat × List Char ←
      match rest with
      | [] => .error .unclosedCount
      | ',' :: rest =>
        match skip flags rest with
        | [] => .error .unclosedCount
        | '\x7d' :: rest => .ok (none, '\x7d' :: rest)
        | rest => do
          let (most, rest) ← count flags rest
          if rest.isEmpty then .error .unclosedCount else .ok (some most, rest)
      | rest => .ok (some least, rest)
    match rest with
    | '\x7d' :: rest =>
      if (most.map fun m => decide (m < least)) = some true then .error .countsOutOfOrder
      else return (least, most, skipLazyMark (skip flags rest))
    | _ => .error .badCountEnd

/-! ## 6. Groups -/

/-- The flags of a directive up to what ends it.  `seen` are the letters so far, `negated` says that
a hyphen was passed, `dangling` that it was the last character. -/
def flagLetters (flags : Flags) (seen : List Char) (negated dangling : Bool) :
    List Char → Except Fault (Flags × List Char)
  | [] => .error .unfinishedFlags
  | c :: rest =>
    if c = ':' ∨ c = ')' then
      if dangling then .error .danglingNegation else .ok (flags, c :: rest)
    else if c = '-' then
      if negated then .error .repeatedNegation else flagLetters flags seen true true rest
    else
      let on := !negated
      let flags? : Option Flags :=
        match c with
        | 'i' => some { flags with ignoreCase := on }
        | 'm' => some { flags with multiLine := on }
        | 's' => some { flags with dotAll := on }
        | 'R' => some { flags with crlf := on }
        | 'x' => some { flags with verbose := on }
        | 'U' | 'u' => some flags
        | _ => none
      match flags? with
      | none => .error .unknownFlag
      | some flags =>
        if seen.contains c then .error .repeatedFlag
        else flagLetters flags (c :: seen) negated false rest

/-- The character may stand in the name of a group; the first one only if it is a letter or the low
line. -/
def isNameChar (first : Bool) (c : Char) : Bool :=
  c == '_' || Text.alphabetic.contains c ||
    (!first && (c == '.' || c == '[' || c == ']' || Text.numeric.contains c))

/-- The name of a group up to its closing bracket, its characters so far in reverse. -/
def groupName (acc : List Char) : List Char → Except Fault (String × List Char)
  | [] => .error (if acc.isEmpty then .missingGroupName else .unclosedGroupName)
  | c :: rest =>
    if c = '>' then
      if acc.isEmpty then .error .emptyGroupName else .ok (String.ofList acc.reverse, rest)
    else if isNameChar acc.isEmpty c then groupName (c :: acc) rest
    else .error .badGroupName

/-- The kind of a group: it is numbered, with a name or without, or it only holds together. -/
inductive GroupKind where
  | numbered (number : Nat) (name : Option String)
  | plain
  deriving DecidableEq, Repr

/-- The pattern of a group around what stands in it. -/
def GroupKind.around : GroupKind → Pattern → Pattern
  | numbered number name, sub => group number name sub
  | plain, sub => sub

/-- A group that has been opened: what stood before it, and the flags to go back to. -/
structure Open where
  alternatives : List Pattern
  row : List Pattern
  flags : Flags
  kind : GroupKind

/-- The state of the reader: the open groups from the innermost, the alternatives and the row read
so far inside the innermost (both in reverse), the flags, the number of the last group and the names
of groups. -/
structure Reading where
  groups : List Open := []
  alternatives : List Pattern := []
  row : List Pattern := []
  flags : Flags := {}
  numbered : Nat := 0
  names : List String := []

namespace Reading

/-- The greatest number of groups inside each other, and of nodes above a leaf. -/
def maxNesting : Nat := 50

/-- A part is added to the row. -/
def push (r : Reading) (p : Pattern) : Reading := { r with row := p :: r.row }

/-- The pattern inside the innermost open group. -/
def inner (r : Reading) : Pattern :=
  ofChoice (ofRow r.row.reverse :: r.alternatives).reverse

/-- A group begins. -/
def enter (r : Reading) (kind : GroupKind) (inside : Flags) : Except Fault Reading :=
  if r.groups.length < maxNesting then
    .ok { r with
      groups := ⟨r.alternatives, r.row, r.flags, kind⟩ :: r.groups
      alternatives := []
      row := []
      flags := inside }
  else .error .tooMuchNesting

/-- A group with the next number begins. -/
def enterNumbered (r : Reading) (name : Option String) : Except Fault Reading :=
  { r with numbered := r.numbered + 1 }.enter (.numbered (r.numbered + 1) name) r.flags

/-- The innermost group ends. -/
def leave (r : Reading) : Except Fault Reading :=
  match r.groups with
  | [] => .error .unopenedGroup
  | g :: groups =>
    .ok { r with
      groups := groups
      alternatives := g.alternatives
      row := g.kind.around r.inner :: g.row
      flags := g.flags }

/-- A group with a name begins. -/
def enterNamed (r : Reading) (cs : List Char) : Except Fault (Reading × List Char) := do
  let (name, rest) ← groupName [] cs
  if r.names.contains name then .error .repeatedGroupName
  else
    let r ← { r with names := name :: r.names }.enterNumbered (some name)
    return (r, rest)

/-- What follows an opening parenthesis: a group of some kind, or a directive for flags. -/
def openGroup (r : Reading) (cs : List Char) : Except Fault (Reading × List Char) :=
  match skip r.flags cs with
  | '?' :: '=' :: _ | '?' :: '!' :: _ => .error .lookAround
  | '?' :: '<' :: '=' :: _ | '?' :: '<' :: '!' :: _ => .error .lookAround
  | '?' :: 'P' :: '<' :: rest | '?' :: '<' :: rest => r.enterNamed rest
  | ['?'] => .error .unfinishedGroup
  | '?' :: rest => do
    match ← flagLetters r.flags [] false false rest with
    | (flags, ':' :: rest) => return (← r.enter .plain flags, rest)
    | (flags, _ :: tail) =>
      if rest.head? = some ')' then .error .emptyFlags
      else return ({ r with flags := flags }, tail)
    | (_, []) => .error .unfinishedFlags
  | cs => do return (← r.enterNumbered none, cs)

/-- The last part of the row is repeated. -/
def repeatLast (r : Reading) (fault : Fault) (least : Nat) (most : Option Nat) :
    Except Fault Reading :=
  match r.row with
  | [] => .error fault
  | p :: row => .ok { r with row := ofRepetition p least most :: row }

/-- The class of the point. -/
def anyChar (flags : Flags) : CharRanges :=
  if flags.dotAll then [(0, CharRanges.greatest)]
  else if flags.crlf then
    CharRanges.complement [CharRanges.single '\n', CharRanges.single '\r']
  else CharRanges.complement [CharRanges.single '\n']

/-- The assertion of the circumflex. -/
def startPlace (flags : Flags) : Place :=
  if flags.multiLine then (if flags.crlf then .crlfLineStart else .lineStart) else .textStart

/-- The assertion of the dollar sign. -/
def endPlace (flags : Flags) : Place :=
  if flags.multiLine then (if flags.crlf then .crlfLineEnd else .lineEnd) else .textEnd

/-- One part of a pattern is read. -/
def step (r : Reading) (c : Char) (rest : List Char) : Except Fault (Reading × List Char) := do
  match c with
  | '(' => r.openGroup rest
  | ')' => return (← r.leave, rest)
  | '|' =>
    return ({ r with alternatives := ofRow r.row.reverse :: r.alternatives, row := [] }, rest)
  | '[' =>
    let (p, rest) ← classBody r.flags rest
    return (r.push p, rest)
  | '?' => return (← r.repeatLast .nothingToRepeat 0 (some 1), skipLazyMark rest)
  | '*' => return (← r.repeatLast .nothingToRepeat 0 none, skipLazyMark rest)
  | '+' => return (← r.repeatLast .nothingToRepeat 1 none, skipLazyMark rest)
  | '\x7b' =>
    if r.row.isEmpty then .error .nothingToCount
    else
      let (least, most, rest) ← counts r.flags rest
      return (← r.repeatLast .nothingToCount least most, rest)
  | '\\' =>
    let (p, rest) ← escape r.flags rest
    return (r.push p, rest)
  | '.' => return (r.push (cls (anyChar r.flags)), rest)
  | '^' => return (r.push (place (startPlace r.flags)), rest)
  | '$' => return (r.push (place (endPlace r.flags)), rest)
  | c => return (r.push (ofChar r.flags c), rest)

/-- The parts of a pattern up to the end of the text.  Every part uses up a character, so the length
of the text is fuel enough. -/
def run : Nat → Reading → List Char → Except Fault Pattern
  | 0, _, _ => .error .unclosedGroup
  | fuel + 1, r, cs =>
    match skip r.flags cs with
    | [] => if r.groups.isEmpty then .ok r.inner else .error .unclosedGroup
    | c :: rest => do
      let (r, rest) ← r.step c rest
      run fuel r rest

end Reading

/-! ## 7. Whole patterns -/

/-- The pattern that a text writes, its nesting not yet bounded. -/
def read (text : String) : Except Fault Pattern :=
  Reading.run (text.toList.length + 1) {} text.toList

/-- The greatest number of bytes that a pattern may be charged for. -/
def maxBytes : Nat := 10 * 1024 * 1024

/-- The pattern that a text writes. -/
def compile (text : String) : Except Fault Pattern := do
  let p ← read text
  if Reading.maxNesting < p.nesting then .error .tooMuchNesting
  else if maxBytes < p.bytes then .error .tooLarge
  else return p

end GraphQuery.Pattern
