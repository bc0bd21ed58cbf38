import CloutQuery.Value.Basic
import CloutQuery.Text.Quoted

namespace CloutQuery.Value

open Text (hexText)

def escapedChar (c : Char) : List Char :=
  match c with
  | '"' => ['\\', '"']
  | '\\' => ['\\', '\\']
  | '\x08' => ['\\', 'b']
  | '\x0c' => ['\\', 'f']
  | '\n' => ['\\', 'n']
  | '\r' => ['\\', 'r']
  | '\t' => ['\\', 't']
  | c =>
    if c.toNat < 0x10 then '\\' :: 'u' :: '0' :: '0' :: '0' :: hexText c.toNat
    else if c.toNat < 0x20 then '\\' :: 'u' :: '0' :: '0' :: hexText c.toNat
    else [c]

def stringText (s : String) : String :=
  String.ofList ('"' :: s.toList.flatMap escapedChar ++ ['"'])

def scalarText : Value → String
  | .boolean true => "true"
  | .boolean false => "false"
  | .number n => n.render
  | .text s => stringText s
  | _ => "null"

def memberText (separator key value : String) : String := stringText key ++ separator ++ value

mutual

def render : Value → String
  | .array items => "[" ++ String.intercalate "," (renderItems items) ++ "]"
  | .object ⟨entries⟩ => "\x7b" ++ String.intercalate "," (renderEntries entries) ++ "\x7d"
  | scalar => scalar.scalarText
termination_by structural v => v

def renderItems : List Value → List String
  | [] => []
  | v :: vs => v.render :: renderItems vs
termination_by structural vs => vs

def renderEntries : List (String × Value) → List String
  | [] => []
  | (k, v) :: vs => memberText ":" k v.render :: renderEntries vs
termination_by structural vs => vs

end

def indent (level : Nat) : String := String.ofList ('\n' :: List.replicate (2 * level) ' ')

def block (opening closing : String) (level : Nat) (parts : List String) : String :=
  if parts.isEmpty then opening ++ closing
  else
    let inner := indent (level + 1)
    opening ++ inner ++ String.intercalate ("," ++ inner) parts ++ indent level ++ closing

mutual

def renderIndented (level : Nat) : Value → String
  | .array items => block "[" "]" level (indentedItems (level + 1) items)
  | .object ⟨entries⟩ => block "\x7b" "\x7d" level (indentedEntries (level + 1) entries)
  | scalar => scalar.scalarText
termination_by structural v => v

def indentedItems (level : Nat) : List Value → List String
  | [] => []
  | v :: vs => v.renderIndented level :: indentedItems level vs
termination_by structural vs => vs

def indentedEntries (level : Nat) : List (String × Value) → List String
  | [] => []
  | (k, v) :: vs => memberText ": " k (v.renderIndented level) :: indentedEntries level vs
termination_by structural vs => vs

end

def pretty (v : Value) : String := v.renderIndented 0

end CloutQuery.Value
