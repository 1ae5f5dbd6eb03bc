import CodeWeave.Text.Scan
import CodeWeave.Text.Word

/-!
# Sensitive strings

Four kinds of string give something away: API keys, assigned secrets, e-mail addresses and
paths of a file system. Each kind has a pattern over `Text`. Paths are described but not
applied, since the specifiers of imports look like them.

The vocabulary of each pattern is a predicate on characters, so that what a pattern can
match is read off its definition.
-/

namespace CodeWeave

open Text

/-- The kinds of sensitive string. -/
inductive Sensitive where
  | apiKeys
  | secrets
  | emails
  | paths
  deriving DecidableEq, Repr

namespace Sensitive

/-! ## Character classes -/

/-- An ASCII letter or digit. -/
def isAlnum (c : Char) : Bool := c.isAlphanum

/-- What an inference key of the second form is made of. -/
def isKeyChar (c : Char) : Bool := c.isAlphanum || c == '-' || c == '_'

/-- What the part of an address before the `@` is made of. -/
def isLocalChar (c : Char) : Bool :=
  c.isAlphanum || c == '.' || c == '_' || c == '%' || c == '+' || c == '-'

/-- What a domain name is made of. -/
def isDomainChar (c : Char) : Bool := c.isAlphanum || c == '.' || c == '-'

def isQuote (c : Char) : Bool := c == '"' || c == '\''

/-- What a component of a path with slashes is made of. -/
def isComponentChar (c : Char) : Bool := isWord c || c == '.' || c == '-'

/-- What a component of a path with a drive letter is made of. -/
def isDriveChar (c : Char) : Bool :=
  !("\\/:*?\"<>|\r\n".toList.contains c)

/-! ## API keys -/

/-- `sk-` and at least twenty letters or digits. -/
def readShortKey (t : Text) : Option Text := do
  let r ← skip "sk-".toList t
  if 20 ≤ (r.takeWhile isAlnum).length then some (r.dropWhile isAlnum) else none

/-- `AIza` and exactly thirty-five key characters. -/
def readLongKey (t : Text) : Option Text := do
  let r ← skip "AIza".toList t
  if (r.take 35).length = 35 ∧ (r.take 35).all isKeyChar then some (r.drop 35) else none

/-- What follows an API key at the head of the text. -/
def readApiKey (t : Text) : Option Text := (readShortKey t).or (readLongKey t)

/-! ## Secrets -/

/-- The letter that a character stands for when case is ignored. Four letters beyond ASCII
stand for an ASCII one: the long s, the kelvin sign, and the dotted and the dotless i. -/
def foldCase (c : Char) : Char :=
  if c.toNat = 0x17F then 's'
  else if c.toNat = 0x212A then 'k'
  else if c.toNat = 0x130 ∨ c.toNat = 0x131 then 'i'
  else c.toLower

/-- The names under which a secret is assigned. -/
def secretWords : List Text :=
  ["password".toList, "secret".toList, "api_key".toList, "token".toList,
    "auth_token".toList]

/-- Cuts the word off the head of the text, whatever its case. -/
def cutWord (word t : Text) : Option (Text × Text) :=
  if (t.take word.length).map foldCase = word
    then some (t.take word.length, t.drop word.length)
  else none

/-- The name of a secret at the head of the text, as it is written there, and
what follows it. -/
def cutSecretWord (t : Text) : Option (Text × Text) := secretWords.findSome? (cutWord · t)

/-- What follows a quoted value: a quote, characters that are no quotes, at
least one, a quote. -/
def readQuoted (t : Text) : Option Text :=
  match t with
  | q :: c :: cs =>
    if isQuote q && !isQuote c then
      match cs.dropWhile (fun d => !isQuote d) with
      | _ :: rest => some rest
      | [] => none
    else none
  | _ => none

/-- What follows a colon or an equals sign. -/
def readSeparator (t : Text) : Option Text :=
  match t with
  | c :: cs => if c == ':' || c == '=' then some cs else none
  | [] => none

/-- The name of the secret that is assigned at the head of the text, and what follows the
assignment. -/
def cutSecret (t : Text) : Option (Text × Text) := do
  let (key, r) ← cutSecretWord t
  let r ← readSeparator (trimStart r)
  let r ← readQuoted (trimStart r)
  some (key, r)

/-! ## E-mail addresses -/

/-- What follows a top-level domain: a full stop and at least two letters. -/
def readTopLevel (t : Text) : Option Text := do
  let r ← skip ".".toList t
  if 2 ≤ (r.takeWhile Char.isAlpha).length then some (r.dropWhile Char.isAlpha) else none

/-- What follows an e-mail address at the head of the text. The domain extends to the last
top-level domain in it. -/
def readEmail (t : Text) : Option Text :=
  match t, t.dropWhile isLocalChar with
  | c :: _, '@' :: d :: ds =>
    if isLocalChar c && isDomainChar d then
      longest (fun x => !isDomainChar x) readTopLevel ds
    else none
  | _, _ => none

/-! ## Paths -/

/-- What follows a path with a drive letter, after its first backslash; `fresh` tells that
a backslash came last, and there a second one ends the path. -/
def driveRest (fresh : Bool) : Text → Text
  | [] => []
  | c :: cs =>
    if c = '\\' then (if fresh then c :: cs else driveRest true cs)
    else if isDriveChar c then driveRest false cs
    else c :: cs

/-- What follows a path with a drive letter. -/
def readDrivePath (t : Text) : Option Text :=
  match t with
  | c :: ':' :: '\\' :: cs => if c.isAlpha then some (driveRest true cs) else none
  | _ => none

/-- Passes over component characters, and over slashes with a component
character after them. -/
def componentsRest : Text → Text
  | [] => []
  | c :: cs =>
    if isComponentChar c then componentsRest cs
    else if c == '/' && (cs.head?.map isComponentChar).getD false then componentsRest cs
    else c :: cs

/-- What follows an absolute path of at least two components. -/
def readSlashPath (t : Text) : Option Text :=
  match t with
  | '/' :: c :: cs =>
    if isComponentChar c then
      match cs.dropWhile isComponentChar with
      | '/' :: d :: ds => if isComponentChar d then some (componentsRest ds) else none
      | _ => none
    else none
  | _ => none

/-- What follows a path of either form. -/
def readPath (t : Text) : Option Text := (readDrivePath t).or (readSlashPath t)

/-! ## The table -/

def pattern : Sensitive → Pattern
  | apiKeys => .ofReader readApiKey
  | secrets => .ofReader fun t => (cutSecret t).map (·.2)
  | emails => .ofReader readEmail
  | paths => .ofReader readPath

/-- The kinds, in the order in which they are looked for. -/
def all : List Sensitive := [apiKeys, secrets, emails, paths]

def name : Sensitive → String
  | apiKeys => "api_keys"
  | secrets => "secrets"
  | emails => "emails"
  | paths => "paths"

def ofName? (name : String) : Option Sensitive := all.find? (·.name == name)

/-- Whether redaction looks for the kind. -/
def applied : Sensitive → Bool
  | paths => false
  | _ => true

/-- The kinds that redaction looks for. -/
def allApplied : List Sensitive := all.filter applied

/-- The kinds that redaction looks for and that occur in the text. -/
def find (t : Text) : List Sensitive := allApplied.filter (·.pattern.occurs t)

end Sensitive

end CodeWeave
