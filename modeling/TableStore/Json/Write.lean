import TableStore.Json.Basic

/-!
# Writing JSON

Trees are written with one member or item to a line and two spaces to a level. A string escapes the
quote, the backslash and the characters below the space, and nothing else.
-/
namespace TableStore.Json

def hexDigit (n : Nat) : Char := if n < 10 then Char.ofNat (48 + n) else Char.ofNat (87 + n)

def escape (c : Char) : List Char :=
  if c = '"' then ['\\', '"']
  else if c = '\\' then ['\\', '\\']
  else if c = '\x08' then ['\\', 'b']
  else if c = '\x0C' then ['\\', 'f']
  else if c = '\n' then ['\\', 'n']
  else if c = '\r' then ['\\', 'r']
  else if c = '\t' then ['\\', 't']
  else if c.toNat < 0x20 then
    ['\\', 'u', '0', '0', hexDigit (c.toNat / 16), hexDigit (c.toNat % 16)]
  else [c]

def quote (s : String) : List Char := '"' :: (s.toList.flatMap escape ++ ['"'])

/-- A string that is no text has no written form, and is left empty. -/
def quoteText (s : JsonText) : List Char := quote (s.getD "")

/-- The end of a line and the space in front of the next. -/
def lineBreak (level : Nat) : List Char := '\n' :: List.replicate (2 * level) ' '

mutual

/-- The written form of a tree that starts at the level. -/
def write (level : Nat) : Json → List Char
  | null => ['n', 'u', 'l', 'l']
  | boolean true => ['t', 'r', 'u', 'e']
  | boolean false => ['f', 'a', 'l', 's', 'e']
  | number numeral => numeral.toList
  | string s => quoteText s
  | array [] => ['[', ']']
  | array (j :: js) =>
    '[' :: (lineBreak (level + 1) ++ write (level + 1) j ++ writeItems (level + 1) js ++
      lineBreak level ++ [']'])
  | object [] => ['\x7b', '\x7d']
  | object ((k, j) :: ms) =>
    '\x7b' :: (lineBreak (level + 1) ++ quoteText k ++ [':', ' '] ++ write (level + 1) j ++
      writeMembers (level + 1) ms ++ lineBreak level ++ ['\x7d'])
  | broken => []

/-- The items after the first. -/
def writeItems (level : Nat) : List Json → List Char
  | [] => []
  | j :: js => ',' :: (lineBreak level ++ write level j ++ writeItems level js)

/-- The members after the first. -/
def writeMembers (level : Nat) : List (JsonText × Json) → List Char
  | [] => []
  | (k, j) :: ms =>
    ',' :: (lineBreak level ++ quoteText k ++ [':', ' '] ++ write level j ++ writeMembers level ms)

end

def pretty (j : Json) : String := String.ofList (j.write 0)

end TableStore.Json
