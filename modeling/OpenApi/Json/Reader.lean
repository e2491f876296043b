import OpenApi.Json.Token

/-
Reading a document from JSON text.

The reader goes through the tokens once.  The containers that are still open are kept in a list of
frames, and `Want` says what may come next.  The first token that may not come there decides the
fault that is reported.
-/
namespace OpenApi.Json

/-- Where in a text a fault lies, with lines and columns counted from one. -/
structure Place where
  line : Nat
  column : Nat
  offset : Nat
  deriving DecidableEq, Repr

structure Error where
  fault : Fault
  place : Place
  deriving DecidableEq, Repr

/-- The place with the given number of characters before it. -/
def Place.ofOffset (cs : List Char) (offset : Nat) : Place :=
  let before := cs.take offset
  let lastLine := (before.reverse.takeWhile (· != '\n')).length
  ⟨before.count '\n' + 1, lastLine + 1, offset⟩

def Fault.message : Fault → String
  | .value => "Expecting value"
  | .name => "Expecting property name enclosed in double quotes"
  | .colon => "Expecting ':' delimiter"
  | .comma => "Expecting ',' delimiter"
  | .extra => "Extra data"
  | .unterminated => "Unterminated string starting at"
  | .control => "Invalid control character at"
  | .escape => "Invalid \\escape"
  | .unicode => "Invalid \\uXXXX escape"
  | .byteOrderMark => "Unexpected UTF-8 BOM (decode using utf-8-sig)"
  | .tooLong => "Exceeds the limit for integer conversion"
  | .tooDeep => "Too many open containers"

def Error.message (e : Error) : String :=
  e.fault.message ++ ": line " ++ toString e.place.line ++ " column " ++ toString e.place.column ++
    " (char " ++ toString e.place.offset ++ ")"

/-- A container that is still open: the items so far, last one first, or the entries so far and the
key whose value is being read. -/
inductive Frame where
  | list (done : List Node)
  | map (done : Entries) (key : String)

inductive Want where
  | value
  /-- A value, or the end of the list that has just begun. -/
  | valueOrEnd
  | name (done : Entries)
  /-- The name of a member, or the end of the map that has just begun. -/
  | nameOrEnd
  | colon (done : Entries) (key : String)
  /-- A value is complete.  It is the result, or belongs to the innermost open container, and what
  may come next is another item, the end of that container or the end of the text. -/
  | after (value : Node)

/-- What the state of the reader asks for, when something else stands there. -/
def Want.fault (frames : List Frame) : Want → Fault
  | .value | .valueOrEnd => .value
  | .name _ | .nameOrEnd => .name
  | .colon .. => .colon
  | .after _ => if frames.isEmpty then .extra else .comma

/-- The greatest number of containers that are open at once. -/
def deepest : Nat := 990

/-- Open a container in the frames that are open already. -/
def enter (frames : List Frame) (inner : List Frame × Want) : Except Fault (List Frame × Want) :=
  if frames.length < deepest then .ok inner else .error .tooDeep

/-- A value begins with the given token. -/
def begin (frames : List Frame) : Token → Except Fault (List Frame × Want)
  | .mapOpen => enter frames (frames, .nameOrEnd)
  | .listOpen => enter frames (.list [] :: frames, .valueOrEnd)
  | .text s => .ok (frames, .after (.str s))
  | .plain s => .ok (frames, .after (.scalar s))
  | .long => .error .tooLong
  | _ => .error .value

def beginName (frames : List Frame) (done : Entries) : Token → Except Fault (List Frame × Want)
  | .text key => .ok (frames, .colon done key)
  | _ => .error .name

def step (frames : List Frame) (want : Want) (token : Token) :
    Except Fault (List Frame × Want) :=
  match want, frames, token with
  | .value, frames, token => begin frames token
  | .valueOrEnd, .list done :: outer, .listClose => .ok (outer, .after (.list done.reverse))
  | .valueOrEnd, frames, token => begin frames token
  | .nameOrEnd, frames, .mapClose => .ok (frames, .after (.map []))
  | .nameOrEnd, frames, token => beginName frames [] token
  | .name done, frames, token => beginName frames done token
  | .colon done key, frames, .colon => .ok (.map done key :: frames, .value)
  | .colon .., _, _ => .error .colon
  | .after v, .list done :: outer, .comma => .ok (.list (v :: done) :: outer, .value)
  | .after v, .list done :: outer, .listClose => .ok (outer, .after (.list (v :: done).reverse))
  | .after v, .map done key :: outer, .comma =>
    .ok (outer, .name (Entries.insert (.str key) v done))
  | .after v, .map done key :: outer, .mapClose =>
    .ok (outer, .after (.map (Entries.insert (.str key) v done)))
  | .after _, [], _ => .error .extra
  | .after _, _ :: _, _ => .error .comma

def Want.takesText : Want → Bool
  | .value | .valueOrEnd | .name _ | .nameOrEnd => true
  | _ => false

/-- Read the tokens; a fault comes with its place. -/
def run (frames : List Frame) (want : Want) :
    List (Token × List Char) → Except (Fault × List Char) Node
  | [] =>
    match want, frames with
    | .after v, [] => .ok v
    | want, frames => .error (want.fault frames, [])
  | (.broken fault place, here) :: _ =>
    if want.takesText then .error (fault, place) else .error (want.fault frames, here)
  | (token, here) :: rest =>
    match step frames want token with
    | .ok (frames, want) => run frames want rest
    | .error fault => .error (fault, here)

/-- The document that a JSON text holds. -/
def read (cs : List Char) : Except Error Node :=
  if cs.head? == some '\ufeff' then .error ⟨.byteOrderMark, Place.ofOffset cs 0⟩
  else
    match run [] .value (tokens cs) with
    | .ok node => .ok node
    | .error (fault, place) => .error ⟨fault, Place.ofOffset cs (cs.length - place.length)⟩

end OpenApi.Json
