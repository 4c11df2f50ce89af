import NestStorageExample.Text.PercentEncoding

/-! The URL parser of the web platform on an absolute URL: a state machine over code points.
How an authority is read, with its user, host and port, is left open. -/
namespace NestStorageExample.Url
open Text
variable {α : Type}

/-- What becomes of an authority in a special URL or in another one, and of a host after
`file://`; `none` is a failure. -/
structure Hosts (α : Type) where
  authority : Bool → List Nat → Option α
  file : List Nat → Option α
  empty : α

inductive UrlPath where
  | opaquePath (text : JsString)
  | segments (list : List JsString)
  deriving DecidableEq

/-- `pathname` -/
def UrlPath.pathname : UrlPath → JsString
  | opaquePath text => text
  | segments list => list.flatMap (slash :: ·)

/-- What stands before the path. -/
structure Front (α : Type) where
  scheme : JsString
  authority : Option α
  deriving DecidableEq

/-- A parsed URL. -/
structure UrlRecord (α : Type) where
  front : Front α
  path : UrlPath
  query : Option JsString
  fragment : Option JsString
  deriving DecidableEq

inductive State (α : Type) where
  | failure
  | schemeStart
  | scheme (buffer : JsString)
  | afterScheme (scheme : JsString)
  | pathOrAuthority (scheme : JsString)
  | specialAuthoritySlashes (scheme : JsString)
  | authority (scheme : JsString) (buffer : List Nat)
  | file
  | fileSlash
  | fileHost (buffer : List Nat)
  | path (front : Front α) (segments : List JsString) (buffer : JsString)
  | opaquePath (scheme text : JsString)
  | query (front : Front α) (path : UrlPath) (text : JsString)
  | fragment (front : Front α) (path : UrlPath) (query : Option JsString) (text : JsString)

def specialSchemes : List JsString := [js "ftp", js "file", js "http", js "https", js "ws", js "wss"]

def isSpecial (scheme : JsString) : Bool := specialSchemes.contains scheme

/-! The percent-encode sets, each on top of the one before. -/

def inC0ControlSet (cp : Nat) : Bool := cp ≤ 0x1F || 0x7E < cp

def inFragmentSet (cp : Nat) : Bool := inC0ControlSet cp || [0x20, 0x22, 0x3C, 0x3E, 0x60].contains cp

def inQuerySet (special : Bool) (cp : Nat) : Bool :=
  inC0ControlSet cp || [0x20, 0x22, 0x23, 0x3C, 0x3E].contains cp || special && cp == 0x27

def inPathSet (cp : Nat) : Bool := inQuerySet false cp || [0x3F, 0x5E, 0x60, 0x7B, 0x7D].contains cp

def percentEncode (inSet : Nat → Bool) (cp : Nat) : JsString :=
  if inSet cp then (utf8CodePoint cp).flatMap percentEncodeByte else [UInt16.ofNat cp]

def isAlpha (cp : Nat) : Bool := (0x41 ≤ cp && cp ≤ 0x5A) || (0x61 ≤ cp && cp ≤ 0x7A)

def isSchemeUnit (cp : Nat) : Bool :=
  isAlpha cp || (0x30 ≤ cp && cp ≤ 0x39) || [0x2B, 0x2D, 0x2E].contains cp

def lowerUnit (cp : Nat) : CodeUnit := UInt16.ofNat (if 0x41 ≤ cp ∧ cp ≤ 0x5A then cp + 0x20 else cp)

/-- A slash, and in a special URL a backslash too. -/
def isSeparator (special : Bool) (c : Nat) : Bool := c == 0x2F || special && c == 0x5C

/-- A question mark or a hash. -/
def endsPath (c : Nat) : Bool := c == 0x3F || c == 0x23

/-- A letter and a colon or a bar. -/
def isDriveLetter (text : List Nat) : Bool :=
  match text with
  | [letter, mark] => isAlpha letter && (mark == 0x3A || mark == 0x7C)
  | _ => false

def isDriveSegment (segment : JsString) : Bool := isDriveLetter (segment.map UInt16.toNat)

def isNormalizedDriveLetter (segment : JsString) : Bool :=
  isDriveSegment segment && segment.getLast? == some 0x3A

/-- The four spellings of a dot and a dot, the escape in either case. -/
def dotSpellings : List JsString := [js ".", js "%2e", js "%2E"]

def isSingleDot (segment : JsString) : Bool := dotSpellings.contains segment

def isDoubleDot (segment : JsString) : Bool :=
  (dotSpellings.flatMap fun first => dotSpellings.map (first ++ ·)).contains segment

/-- A drive letter in front of a `file` path stays. -/
def shorten (front : Front α) (segments : List JsString) : List JsString :=
  match segments with
  | [segment] => if front.scheme = js "file" ∧ isNormalizedDriveLetter segment then segments else []
  | _ => segments.dropLast

/-- The path once a segment has ended, at a separator or at the end of the path. -/
def closeSegment (front : Front α) (segments : List JsString) (buffer : JsString) (atSeparator : Bool) :
    List JsString :=
  if isDoubleDot buffer then
    if atSeparator then shorten front segments else shorten front segments ++ [[]]
  else if isSingleDot buffer then
    if atSeparator then segments else segments ++ [[]]
  else if front.scheme = js "file" ∧ segments = [] ∧ isDriveSegment buffer then
    segments ++ [buffer.take 1 ++ [0x3A]]
  else segments ++ [buffer]

def leavePath (front : Front α) (path : UrlPath) (c : Nat) : State α :=
  if c = 0x3F then .query front path [] else .fragment front path none []

def pathStep (front : Front α) (segments : List JsString) (buffer : JsString) (c : Nat) : State α :=
  if isSeparator (isSpecial front.scheme) c then .path front (closeSegment front segments buffer true) []
  else if endsPath c then leavePath front (.segments (closeSegment front segments buffer false)) c
  else .path front segments (buffer ++ percentEncode inPathSet c)

/-- The path start state, which an authority leads to. -/
def pathStartStep (front : Front α) (c : Nat) : State α :=
  if isSeparator (isSpecial front.scheme) c then .path front [] []
  else if isSpecial front.scheme then pathStep front [] [] c
  else if endsPath c then leavePath front (.segments []) c
  else pathStep front [] [] c

/-- A space in front of the mark that ends an opaque path is escaped. -/
def guardSpace (text : JsString) : JsString :=
  if text.getLast? = some 0x20 then text.dropLast ++ js "%20" else text

def opaquePathStep (scheme text : JsString) (c : Nat) : State α :=
  if endsPath c then leavePath ⟨scheme, none⟩ (.opaquePath (guardSpace text)) c
  else .opaquePath scheme (text ++ percentEncode inC0ControlSet c)

section Steps
variable (hosts : Hosts α)

def fileFront : Front α := ⟨js "file", some hosts.empty⟩

def authorityStep (scheme : JsString) (buffer : List Nat) (c : Nat) : State α :=
  if isSeparator (isSpecial scheme) c || endsPath c then
    match hosts.authority (isSpecial scheme) buffer with
    | none => .failure
    | some authority => pathStartStep ⟨scheme, some authority⟩ c
  else .authority scheme (buffer ++ [c])

/-- A drive letter where a host stands is the first segment of the path. -/
def fileHostStep (buffer : List Nat) (c : Nat) : State α :=
  if isSeparator true c || endsPath c then
    if isDriveLetter buffer then pathStep (fileFront hosts) [] (buffer.map UInt16.ofNat) c
    else if buffer = [] then pathStartStep (fileFront hosts) c
    else match hosts.file buffer with
      | none => .failure
      | some host => pathStartStep ⟨js "file", some host⟩ c
  else .fileHost (buffer ++ [c])

def schemeStep (buffer : JsString) (c : Nat) : State α :=
  if isSchemeUnit c then .scheme (buffer ++ [lowerUnit c])
  else if c = 0x3A then
    if buffer = js "file" then .file
    else if isSpecial buffer then .specialAuthoritySlashes buffer
    else .afterScheme buffer
  else .failure

def step : State α → Nat → State α
  | .failure, _ => .failure
  | .schemeStart, c => if isAlpha c then .scheme [lowerUnit c] else .failure
  | .scheme buffer, c => schemeStep buffer c
  | .afterScheme scheme, c => if c = 0x2F then .pathOrAuthority scheme else opaquePathStep scheme [] c
  | .pathOrAuthority scheme, c => if c = 0x2F then .authority scheme [] else pathStep ⟨scheme, none⟩ [] [] c
  | .specialAuthoritySlashes scheme, c =>
    if isSeparator true c then .specialAuthoritySlashes scheme else authorityStep hosts scheme [] c
  | .authority scheme buffer, c => authorityStep hosts scheme buffer c
  | .file, c => if isSeparator true c then .fileSlash else pathStep (fileFront hosts) [] [] c
  | .fileSlash, c => if isSeparator true c then .fileHost [] else pathStep (fileFront hosts) [] [] c
  | .fileHost buffer, c => fileHostStep hosts buffer c
  | .path front segments buffer, c => pathStep front segments buffer c
  | .opaquePath scheme text, c => opaquePathStep scheme text c
  | .query front path text, c =>
    if c = 0x23 then .fragment front path (some text) []
    else .query front path (text ++ percentEncode (inQuerySet (isSpecial front.scheme)) c)
  | .fragment front path query text, c => .fragment front path query (text ++ percentEncode inFragmentSet c)

def pathEnd (front : Front α) (segments : List JsString) (buffer : JsString) : UrlRecord α :=
  ⟨front, .segments (closeSegment front segments buffer false), none, none⟩

def pathStartEnd (front : Front α) : UrlRecord α :=
  if isSpecial front.scheme then pathEnd front [] [] else ⟨front, .segments [], none, none⟩

/-- What the end of the input makes of a state. -/
def finish : State α → Option (UrlRecord α)
  | .failure => none
  | .schemeStart => none
  | .scheme _ => none
  | .afterScheme scheme => some ⟨⟨scheme, none⟩, .opaquePath [], none, none⟩
  | .pathOrAuthority scheme => some (pathEnd ⟨scheme, none⟩ [] [])
  | .specialAuthoritySlashes scheme =>
    (hosts.authority (isSpecial scheme) []).map fun authority => pathStartEnd ⟨scheme, some authority⟩
  | .authority scheme buffer =>
    (hosts.authority (isSpecial scheme) buffer).map fun authority => pathStartEnd ⟨scheme, some authority⟩
  | .file => some (pathEnd (fileFront hosts) [] [])
  | .fileSlash => some (pathEnd (fileFront hosts) [] [])
  | .fileHost buffer =>
    if isDriveLetter buffer then some (pathEnd (fileFront hosts) [] (buffer.map UInt16.ofNat))
    else if buffer = [] then some (pathStartEnd (fileFront hosts))
    else (hosts.file buffer).map fun host => pathStartEnd ⟨js "file", some host⟩
  | .path front segments buffer => some (pathEnd front segments buffer)
  | .opaquePath scheme text => some ⟨⟨scheme, none⟩, .opaquePath text, none, none⟩
  | .query front path text => some ⟨front, path, some text, none⟩
  | .fragment front path query text => some ⟨front, path, query, some text⟩

end Steps

def isC0OrSpace (cp : Nat) : Bool := cp ≤ 0x20

def isTabOrNewline (cp : Nat) : Bool := cp == 0x09 || cp == 0x0A || cp == 0x0D

/-- The code points that are parsed: no surrogates, no blanks about the URL, no tabs and no
newlines anywhere. -/
def input (s : JsString) : List Nat :=
  ((((codePoints s).map (fun cp => if IsSurrogate cp then replacement else cp)).dropWhile isC0OrSpace).rdropWhile
    isC0OrSpace).filter (fun cp => !isTabOrNewline cp)

/-- The state that the parser is in once it has read `s`. -/
def stateAfter (hosts : Hosts α) (s : JsString) : State α := (input s).foldl (step hosts) .schemeStart

/-- `new URL(s)`; `none` is the `TypeError` it throws. -/
def parse (hosts : Hosts α) (s : JsString) : Option (UrlRecord α) := finish hosts (stateAfter hosts s)

end NestStorageExample.Url
