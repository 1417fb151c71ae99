import PromptRunner.Yaml.Token
import PromptRunner.Yaml.Token.Block
import PromptRunner.Yaml.Token.Quoted
/-!
# Tags, directives and anchors

The tokens that are names. A tag is written with a handle, `!name!rest`, in short as `!rest`, or in
full as `!<rest>`; its rest is a URI, in which a percent sign opens an escaped byte.
-/

namespace PromptRunner.Yaml.Tag

/-- The characters of a URI; a comma and brackets only where the URI stands between angle
brackets. -/
def isUriChar (full : Bool) (c : Char) : Bool :=
  isNameChar c || ";/?:@&=+$.%!~*'()".toList.contains c || (full && ",[]".toList.contains c)

/-- How many bytes follow a first byte, and the bits it gives. -/
def leadingByte? (b : Nat) : Option (Nat × Nat) :=
  if b < 0x80 then some (0, b)
  else if b < 0xc0 then none
  else if b < 0xe0 then some (1, b - 0xc0)
  else if b < 0xf0 then some (2, b - 0xe0)
  else if b < 0xf8 then some (3, b - 0xf0)
  else none

/-- Replace the escapes of a URI. `wanted` bytes of a character are still to come, and `bits` are
its bits so far. -/
def unescapeFrom : (wanted bits : Nat) → List Char → Option (List Char)
  | 0, _, [] => some []
  | _ + 1, _, [] => none
  | 0, _, '%' :: a :: b :: cs =>
    match (Text.hexNumber? [a, b]).bind leadingByte? with
    | some (0, bits) => (unescapeFrom 0 0 cs).map (Char.ofNat bits :: ·)
    | some (n + 1, bits) => unescapeFrom (n + 1) bits cs
    | none => none
  | 0, _, c :: cs => if c == '%' then none else (unescapeFrom 0 0 cs).map (c :: ·)
  | n + 1, bits, '%' :: a :: b :: cs =>
    match Text.hexNumber? [a, b] with
    | some byte =>
      if 0x80 ≤ byte && byte < 0xc0 then
        let bits := 64 * bits + (byte - 0x80)
        if n = 0 then
          (Text.charOf? bits).bind fun c => (unescapeFrom 0 0 cs).map (c :: ·)
        else unescapeFrom n bits cs
      else none
    | none => none
  | _ + 1, _, _ :: _ => none

/-- The URI that starts here, which may be empty. -/
def uri? (full : Bool) (ms : List Mark) : Option (List Char × List Mark) :=
  let run := chars (ms.takeWhile fun m => isUriChar full m.char)
  (unescapeFrom 0 0 run).map fun uri => (uri, ms.dropWhile fun m => isUriChar full m.char)

/-- The handle that starts here: an exclamation mark, a name and perhaps another mark. -/
def handle? : List Mark → Option (List Char × List Mark)
  | [] => none
  | m :: ms =>
    if m.char == '!' then
      let name := chars (ms.takeWhile fun m => isNameChar m.char)
      let rest := ms.dropWhile fun m => isNameChar m.char
      if charAt rest 0 == '!' then some ('!' :: (name ++ ['!']), rest.drop 1)
      else some ('!' :: name, rest)
    else none

/-- Whether a handle has both of its exclamation marks. -/
def isClosedHandle (handle : List Char) : Bool :=
  1 < handle.length && handle.getLast? == some '!'

/-- The tag that starts here. The tag `!` alone has no handle. -/
def name? (ms : List Mark) : Option (TagName × List Mark) :=
  if charAt ms 1 == '<' then
    match uri? true (ms.drop 2) with
    | some (uri, m :: rest) =>
      if uri.isEmpty || m.char != '>' then none else some (⟨[], uri⟩, rest)
    | _ => none
  else
    match handle? ms with
    | none => none
    | some (handle, ms) =>
      match uri? false ms with
      | none => none
      | some (uri, rest) =>
        if isClosedHandle handle then
          if uri.isEmpty then none else some (⟨handle, uri⟩, rest)
        else
          let name := handle.tail ++ uri
          if name.isEmpty then some (⟨[], ['!']⟩, rest) else some (⟨['!'], name⟩, rest)

/-- The tag that starts here; a gap has to follow it, or between brackets a comma. -/
def read (inFlow : Bool) (ms : List Mark) : Option (TagName × List Mark) :=
  match name? ms with
  | some (name, rest) =>
    if isGap (charAt rest 0) || (inFlow && charAt rest 0 == ',') then some (name, rest) else none
  | none => none

/-- The most digits of a version number. -/
def versionDigits : Nat := 9

def versionNumber? (ms : List Mark) : Option (Nat × List Mark) :=
  let digits := chars (ms.takeWhile fun m => m.char.isDigit)
  if digits.isEmpty || versionDigits < digits.length then none
  else
    some (Text.natOfDigits digits, ms.dropWhile fun m => m.char.isDigit)

/-- Marks without the blanks at their start. -/
def skipBlanks (ms : List Mark) : List Mark :=
  ms.dropWhile fun m => isBlank m.char

def versionDirective? (ms : List Mark) : Option (Token × List Mark) :=
  match versionNumber? (skipBlanks ms) with
  | some (major, m :: rest) =>
    if m.char == '.' then
      (versionNumber? rest).map fun (minor, rest) => (.versionDirective major minor, rest)
    else none
  | _ => none

/-- The handle that a directive explains, and its meaning. -/
def tagDirective? (ms : List Mark) : Option (Token × List Mark) :=
  match handle? (skipBlanks ms) with
  | some (handle, rest) =>
    if (handle == ['!'] || isClosedHandle handle) && isBlank (charAt rest 0) then
      match uri? true (skipBlanks rest) with
      | some (meaning, rest) =>
        if meaning.isEmpty || !isGap (charAt rest 0) then none
        else some (.tagDirective handle meaning, rest)
      | none => none
    else none
  | none => none

/-- The directive that starts behind a percent sign, and the marks after its line. -/
def directive? (ms : List Mark) : Option (Token × List Mark) :=
  let name := chars (ms.takeWhile fun m => isNameChar m.char)
  let rest := ms.dropWhile fun m => isNameChar m.char
  if !isGap (charAt rest 0) then none
  else
    let body :=
      if name == "YAML".toList then versionDirective? rest
      else if name == "TAG".toList then tagDirective? rest
      else none
    body.bind fun (token, rest) => (Block.restOfLine? rest).map fun rest => (token, rest)

/-- The name of an anchor or alias, from behind its indicator. -/
def anchorName? (ms : List Mark) : Option (List Char × List Mark) :=
  let name := chars (ms.takeWhile fun m => isNameChar m.char)
  let rest := ms.dropWhile fun m => isNameChar m.char
  let next := charAt rest 0
  if name.isEmpty || !(isGap next || "?:,]\x7d%@\x60".toList.contains next) then none
  else some (name, rest)

end PromptRunner.Yaml.Tag
