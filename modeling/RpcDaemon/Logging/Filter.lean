import RpcDaemon.Text.Blank
import RpcDaemon.Text.Numeral

/-!
# Log filters

A filter is a list of directives with commas between them. A directive gives the least severe level
that is logged, for all messages or for those of a target, a span or fields. The text of a filter
lists its directives by how specific they are, and says each thing once.
-/

namespace RpcDaemon

namespace Log

/-- How severe a message is. -/
inductive Level where
  | off
  | error
  | warn
  | info
  | debug
  | trace
deriving DecidableEq

namespace Level

/-- All levels; the place in the list is the number of the level. -/
def all : List Level := [off, error, warn, info, debug, trace]

/-- The name of a level. -/
def name : Level → String
  | off => "off"
  | error => "error"
  | warn => "warn"
  | info => "info"
  | debug => "debug"
  | trace => "trace"

/-- The level that a number or a name in any case stands for. -/
def ofText? (s : String) : Option Level :=
  match (Numeral.unsigned? 18446744073709551616 s.toList).bind fun n => all[n]? with
  | some l => some l
  | none =>
      if s.isEmpty then some .error else all.find? fun l => sameIgnoringCase l.name s

end Level

/-- A field that a directive asks for: its name, and its value if that matters. -/
structure Field where
  /-- The name. -/
  name : String
  /-- The value, as written. -/
  value : Option String
deriving DecidableEq

/-- The field that a text writes. -/
def Field.ofText (cs : List Char) : Field :=
  match Chars.splitOn '=' cs with
  | name :: value :: _ => ⟨String.ofList name, some (String.ofList value)⟩
  | _ => ⟨String.ofList cs, none⟩

/-- The text of a field. -/
def Field.text (f : Field) : String :=
  match f.value with
  | some v => f.name ++ "=" ++ v
  | none => f.name

/-- A directive. -/
structure Directive where
  /-- The target, if only one is meant. -/
  target : Option String
  /-- The span, if only one is meant. -/
  span : Option String
  /-- The field, if one is asked for. -/
  field : Option Field
  /-- The least severe level. -/
  level : Level
deriving DecidableEq

namespace Directive

/-- Every message. -/
def initial : Directive := ⟨none, none, none, .trace⟩

/-- The text of a directive. -/
def text (d : Directive) : String :=
  let scope :=
    if d.span.isSome || d.field.isSome then
      "[" ++ d.span.getD "" ++ (match d.field with
        | some f => "\x7b" ++ f.text ++ "\x7d"
        | none => "") ++ "]"
    else ""
  let subject := d.target.getD "" ++ scope
  if d.target.isSome || !scope.isEmpty then subject ++ "=" ++ d.level.name else d.level.name

/-- Whether a directive depends on the spans around a message. -/
def isDynamic (d : Directive) : Bool :=
  d.span.isSome || d.field.isSome

/-- Whether a directive can be decided from the message alone. -/
def isStatic (d : Directive) : Bool :=
  d.span.isNone && d.field.all fun f => f.value.isNone

/-! ### Reading -/

/-- Where the reading of a directive stands; a number is where a part started. -/
inductive Stage where
  /-- Nothing is read. -/
  | start
  /-- Within a level or a target. -/
  | subject (start : Nat)
  /-- Within a span. -/
  | span (start : Nat)
  /-- Within a field. -/
  | field (start : Nat)
  /-- After the field. -/
  | fieldEnd
  /-- After the bracket. -/
  | scopeEnd
  /-- Within a level. -/
  | level (start : Nat)

/-- Whether a directive may start with a character. -/
def mayStart (c : Char) : Bool :=
  c.isAlphanum || c == '-' || c == ':' || c == '_' || decide (0x80 ≤ c.toNat)

/-- The part of a text between two places. -/
def slice (cs : List Char) (a b : Nat) : String :=
  String.ofList ((cs.drop a).take (b - a))

/-- Reads the character at place `i` of the text `cs`. -/
def step? (cs : List Char) (d : Directive) (stage : Stage) (i : Nat) (c : Char) :
    Option (Directive × Stage) :=
  match stage with
  | .start =>
      if c = '[' then some (d, .span (i + 1))
      else if mayStart c then some (d, .subject i)
      else none
  | .subject s =>
      if c = '=' then some ({ d with target := some (slice cs s i) }, .level (i + 1))
      else if c = '[' then some ({ d with target := some (slice cs s i) }, .span (i + 1))
      else some (d, .subject s)
  | .span s =>
      if c = ']' then some ({ d with span := some (slice cs s i) }, .scopeEnd)
      else if c = '{' then
        let name := slice cs s i
        some ({ d with span := if name.isEmpty then none else some name }, .field (i + 1))
      else some (d, .span s)
  | .field s =>
      if c = '}' then
        let text := slice cs s i
        if text.isEmpty then none
        else some ({ d with field := some (Field.ofText text.toList) }, .fieldEnd)
      else some (d, .field s)
  | .fieldEnd => if c = ']' then some (d, .scopeEnd) else none
  | .scopeEnd => if c = '=' then some (d, .level (i + 1)) else none
  | .level s => some (d, .level s)

/-- Reads characters from place `i` on. -/
def run? (cs : List Char) (d : Directive) (stage : Stage) (i : Nat) :
    List Char → Option (Directive × Stage)
  | [] => some (d, stage)
  | c :: rest =>
      match step? cs d stage i c with
      | some (d, stage) => run? cs d stage (i + 1) rest
      | none => none

/-- Ends the reading of a directive: a last part that names a level is one, any other a target. -/
def finish? (cs : List Char) (d : Directive) : Stage → Option Directive
  | .subject s =>
      let text := slice cs s cs.length
      if text.isEmpty then some d
      else
        match Level.ofText? text with
        | some l => some { d with level := l, target := none }
        | none => some { d with level := .trace, target := some text }
  | .level s =>
      let text := slice cs s cs.length
      if text.isEmpty then some { d with level := .trace }
      else (Level.ofText? text).map fun l => { d with level := l }
  | .scopeEnd => some d
  | _ => none

/-- The directive that a text writes. -/
def ofText? (cs : List Char) : Option Directive :=
  match run? cs .initial .start 0 (Chars.trim cs) with
  | some (d, stage) => finish? cs d stage
  | none => none

/-! ### Order -/

/-- One comparison after another. -/
def firstOf : List Ordering → Ordering
  | [] => .eq
  | o :: rest => if o = .eq then firstOf rest else o

/-- A missing text comes before every text. -/
def compareTexts : Option String → Option String → Ordering
  | none, none => .eq
  | none, some _ => .lt
  | some _, none => .gt
  | some a, some b => compare a b

/-- How two directives compare by how specific they are: by the length of the target, then whether
there is a span and a field, then by the texts. -/
def specificity (a b : Directive) : Ordering :=
  let size (d : Directive) : Nat := (d.target.map fun t => t.utf8ByteSize + 1).getD 0
  let number (p : Bool) : Nat := if p then 1 else 0
  firstOf [compare (size a) (size b), compare (number a.span.isSome) (number b.span.isSome),
    compare (number a.field.isSome) (number b.field.isSome), compareTexts a.target b.target,
    compareTexts a.span b.span, compareTexts (a.field.map Field.text) (b.field.map Field.text)]

/-- Puts a directive at its place, the most specific first, over one that is as specific. -/
def insert (d : Directive) : List Directive → List Directive
  | [] => [d]
  | e :: rest =>
      match specificity d e with
      | .gt => d :: e :: rest
      | .eq => d :: rest
      | .lt => e :: insert d rest

end Directive

/-- A filter: its directives that can be decided from a message alone, and the others. -/
structure Filter where
  /-- The directives decided from a message alone. -/
  statics : List Directive
  /-- The directives that depend on spans. -/
  dynamics : List Directive
deriving DecidableEq

namespace Filter

/-- The directives of a text; malformed ones are passed over. -/
def directives (text : String) : List Directive :=
  (Chars.splitOn ',' text.toList).filterMap Directive.ofText?

/-- The filter that a text writes. Without any directive, errors are logged. -/
def ofText (text : String) : Filter :=
  let ds := directives text
  let plain := ds.filter fun d => !d.isDynamic
  let spanned := ds.filter Directive.isDynamic
  let statics := (plain ++ spanned.filter Directive.isStatic).foldl (fun ds d => d.insert ds) []
  let dynamics := spanned.foldl (fun ds d => d.insert ds) []
  if statics.isEmpty && dynamics.isEmpty then ⟨[{ Directive.initial with level := .error }], []⟩
  else ⟨statics, dynamics⟩

/-- The filter that is used when `configured` is set or not. -/
def resolve (configured : Option String) : Filter :=
  ofText (configured.getD "info")

/-- The text of a filter. -/
def text (f : Filter) : String :=
  ",".intercalate ((f.statics ++ f.dynamics).map Directive.text)

end Filter

end Log

end RpcDaemon
