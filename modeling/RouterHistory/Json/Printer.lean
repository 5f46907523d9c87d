import RouterHistory.Json.Value

/-!
Two ways to write a JSON value: on one line without spaces, or spread over lines with two more
spaces for each level. Characters outside ASCII stand for themselves.
-/
namespace RouterHistory.Json

namespace Value

def charText (c : Char) : String :=
  match c.toNat with
  | 8 => "\\b"
  | 9 => "\\t"
  | 10 => "\\n"
  | 12 => "\\f"
  | 13 => "\\r"
  | 34 => "\\\""
  | 92 => "\\\\"
  | n =>
      if n < 32 then
        let digits := Nat.toDigits 16 n
        "\\u" ++ String.ofList (List.replicate (4 - digits.length) '0' ++ digits)
      else c.toString

def stringText (text : String) : String :=
  text.toList.foldl (fun done c => done ++ charText c) "\"" ++ "\""

mutual

def appendCompact : (done : String) → Value → String
  | done, .null => done ++ "null"
  | done, .bool b => done ++ if b then "true" else "false"
  | done, .number n => done ++ n.text
  | done, .string s => done ++ stringText s
  | done, .array [] => done ++ "[]"
  | done, .array (v :: rest) => appendItems (appendCompact (done ++ "[") v) rest ++ "]"
  | done, .object [] => done ++ "\x7b\x7d"
  | done, .object ((k, v) :: rest) =>
      appendMembers (appendCompact (done ++ "\x7b" ++ stringText k ++ ":") v) rest ++ "\x7d"

def appendItems : (done : String) → List Value → String
  | done, [] => done
  | done, v :: rest => appendItems (appendCompact (done ++ ",") v) rest

def appendMembers : (done : String) → List (String × Value) → String
  | done, [] => done
  | done, (k, v) :: rest =>
      appendMembers (appendCompact (done ++ "," ++ stringText k ++ ":") v) rest

end

def compact (v : Value) : String := appendCompact "" v

def lineStart (level : Nat) : String := "\n" ++ String.ofList (List.replicate (2 * level) ' ')

mutual

/-- Writes a value over several lines; its first line stands at `level`. -/
def spread : (level : Nat) → Value → String
  | _, .array [] => "[]"
  | level, .array (v :: rest) =>
      "[" ++ lineStart (level + 1) ++ spread (level + 1) v ++ spreadItems (level + 1) rest ++
        lineStart level ++ "]"
  | _, .object [] => "\x7b\x7d"
  | level, .object ((k, v) :: rest) =>
      "\x7b" ++ lineStart (level + 1) ++ stringText k ++ ": " ++ spread (level + 1) v ++
        spreadMembers (level + 1) rest ++ lineStart level ++ "\x7d"
  | _, v => v.compact

def spreadItems : (level : Nat) → List Value → String
  | _, [] => ""
  | level, v :: rest => "," ++ lineStart level ++ spread level v ++ spreadItems level rest

def spreadMembers : (level : Nat) → List (String × Value) → String
  | _, [] => ""
  | level, (k, v) :: rest =>
      "," ++ lineStart level ++ stringText k ++ ": " ++ spread level v ++
        spreadMembers level rest

end

def pretty (v : Value) : String := spread 0 v

end Value

end RouterHistory.Json
