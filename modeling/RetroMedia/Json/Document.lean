import RetroMedia.Json.Token

/-! Documents from tokens. A stack holds the lists and records that are still open; each token
extends the innermost one. -/
namespace RetroMedia

/-- A list or a record that is still open. -/
inductive JsonFrame where
  /-- The items so far, newest first. -/
  | array (newestFirst : List Json)
  /-- The members so far and the key whose value is being read. -/
  | object (members : List (String × Json)) (key : String)

/-- What the next token may be. -/
inductive JsonExpects where
  | value
  /-- A value, or the end of a list that has just begun. -/
  | valueOrClose
  | key
  /-- A key, or the end of a record that has just begun. -/
  | keyOrClose
  | colon
  | commaOrClose
  /-- Nothing: the document is complete. -/
  | nothing

/-- A document in the making. -/
structure JsonBuilder where
  frames : List JsonFrame := []
  expects : JsonExpects := .value
  /-- The complete document. -/
  result : Option Json := none

namespace JsonBuilder

/-- Lists and records that may lie within one another. -/
def maxDepth : Nat := 127

/-- A value is complete: put it into the innermost frame. -/
def place (builder : JsonBuilder) (value : Json) : JsonBuilder :=
  match builder.frames with
  | [] => { builder with expects := .nothing, result := some value }
  | .array newestFirst :: outer =>
    { builder with frames := .array (value :: newestFirst) :: outer, expects := .commaOrClose }
  | .object members key :: outer =>
    { builder with
      frames := .object (Json.putMember members key value) "" :: outer
      expects := .commaOrClose }

/-- Begin a list or a record, unless too many are open. -/
def enter? (builder : JsonBuilder) (frame : JsonFrame) (expects : JsonExpects) :
    Option JsonBuilder :=
  if builder.frames.length < maxDepth then
    some { builder with frames := frame :: builder.frames, expects }
  else none

/-- End the innermost frame, if the token fits it. -/
def leave? (builder : JsonBuilder) (token : JsonToken) : Option JsonBuilder :=
  match builder.frames, token with
  | .array newestFirst :: outer, .closeArray =>
    some ({ builder with frames := outer }.place (.array newestFirst.reverse))
  | .object members _ :: outer, .closeObject =>
    some ({ builder with frames := outer }.place (.object members))
  | _, _ => none

/-- A token where a value is expected. -/
def value? (builder : JsonBuilder) : JsonToken → Option JsonBuilder
  | .null => some (builder.place .null)
  | .bool value => some (builder.place (.bool value))
  | .number value => some (builder.place (.number value))
  | .string text => some (builder.place (.string text))
  | .openArray => builder.enter? (.array []) .valueOrClose
  | .openObject => builder.enter? (.object [] "") .keyOrClose
  | _ => none

/-- A token where a key is expected. -/
def key? (builder : JsonBuilder) : JsonToken → Option JsonBuilder
  | .string key =>
    match builder.frames with
    | .object members _ :: outer =>
      some { builder with frames := .object members key :: outer, expects := .colon }
    | _ => none
  | _ => none

/-- After a comma comes a value in a list and a key in a record. -/
def separate? (builder : JsonBuilder) : Option JsonBuilder :=
  match builder.frames with
  | .array _ :: _ => some { builder with expects := .value }
  | .object _ _ :: _ => some { builder with expects := .key }
  | [] => none

/-- Take one token, unless it does not belong here. -/
def step? (builder : JsonBuilder) (token : JsonToken) : Option JsonBuilder :=
  match builder.expects with
  | .value => builder.value? token
  | .valueOrClose => (builder.leave? token).or (builder.value? token)
  | .key => builder.key? token
  | .keyOrClose => (builder.leave? token).or (builder.key? token)
  | .colon => if token = .colon then some { builder with expects := .value } else none
  | .commaOrClose => if token = .comma then builder.separate? else builder.leave? token
  | .nothing => none

end JsonBuilder

namespace Json

/-- The document that some tokens make up. -/
def ofTokens? (tokens : List JsonToken) : Option Json :=
  (tokens.foldlM JsonBuilder.step? {}).bind (·.result)

/-- The document written in some bytes. -/
def parse? (bytes : Bytes) : Option Json := (JsonToken.scan? [] bytes).bind ofTokens?

end Json
end RetroMedia
