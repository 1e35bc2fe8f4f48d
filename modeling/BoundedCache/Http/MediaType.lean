namespace BoundedCache.Http

/-!
# Media types

`isJsonMediaType` decides whether the value of a content-type header announces JSON: the type is
`application`, and the subtype is `json` or has a part `json` on either side of its last plus sign
that is not its first character.  Case does not matter.  The whole value must be in the form of a
media type, its parameters included (`areParameters`).
-/

/-- Whether a character may stand in a type, a subtype, or the name of a parameter. -/
def isTokenChar (c : Char) : Bool :=
  c.isAlphanum || "!#$%&'*+-.^_`|~".toList.contains c

/-- Whether a character may stand in a quoted value. -/
def isQuotedChar (c : Char) : Bool := decide (32 ≤ c.toNat) && decide (c.toNat ≠ 127)

/-- What follows a quoted value, up to the semicolon of the next parameter. -/
def afterQuotedValue? : List Char → Option (List Char)
  | [] => some []
  | c :: rest =>
    if c = ';' then some rest else if c = ' ' then afterQuotedValue? rest else none

/-- What follows the content of a quoted value, from its second character on. -/
def quotedValue? : List Char → Option (List Char)
  | [] => none
  | c :: rest =>
    if c = '"' then afterQuotedValue? rest
    else if isQuotedChar c then quotedValue? rest else none

/-- What follows the value of a parameter and its semicolon.  A quoted value has at least one
    character, which may be a quotation mark; a value without quotation marks may be empty at the
    end only. -/
def parameterValue? (text : List Char) : Option (List Char) :=
  match text with
  | '"' :: c :: rest => if isQuotedChar c then quotedValue? rest else none
  | text =>
    match text.dropWhile isTokenChar with
    | [] => some []
    | c :: rest => if c = ';' ∧ text.head? ≠ some ';' then some rest else none

/-- What follows the first parameter of a text and its semicolon. -/
def parameter? (text : List Char) : Option (List Char) :=
  match text.dropWhile isTokenChar with
  | '=' :: value => if text.head? = some '=' then none else parameterValue? value
  | _ => none

/-- Whether a text consists of at most `count` parameters, with blanks before their names. -/
def areParametersUpTo : (count : Nat) → (text : List Char) → Bool
  | 0, text => text.isEmpty
  | count + 1, text =>
    match text.dropWhile (· == ' ') with
    | [] => true
    | text =>
      match parameter? text with
      | some rest => areParametersUpTo count rest
      | none => false

/-- Whether a text is a list of parameters; each takes at least one character. -/
def areParameters (text : List Char) : Bool := areParametersUpTo text.length text

/-- Whether a subtype is `json` or has that part beside its last plus sign. -/
def isJsonSubtype (subtype : List Char) : Bool :=
  let json := ['j', 's', 'o', 'n']
  let reversed := (subtype.drop 1).reverse
  if reversed.contains '+' then
    let suffix := (reversed.takeWhile (· != '+')).reverse
    let stem := subtype.take (subtype.length - suffix.length - 1)
    suffix == json || stem == json
  else subtype == json

/-- Whether the value of a content-type header announces JSON. -/
def isJsonMediaType (value : String) : Bool :=
  let text := value.toList.map Char.toLower
  let kind := text.takeWhile isTokenChar
  match text.dropWhile isTokenChar with
  | '/' :: rest =>
    let subtype := rest.takeWhile isTokenChar
    let wellFormed := match rest.dropWhile isTokenChar with
      | [] => true
      | ';' :: parameters => !subtype.isEmpty && areParameters parameters
      | _ => false
    text.all (fun c => c.toNat < 127) && wellFormed
      && kind == "application".toList && isJsonSubtype subtype
  | _ => false

end BoundedCache.Http
