import ComponentCatalog.Extract.Callable
import ComponentCatalog.Log

/-!
# Events of a component

Events are found in two places. A property whose name begins like a handler and
whose type can be called is one. And the compiled source of a component calls an
emitter for every event it emits, with the name of the event and the values that
go with it; those values, as written, are the event's parameters.

`mergeEvents` joins both: the events of the properties keep their places, a call
site overrides the parameters of the property of the same name, and events that
only call sites know come after.
-/

namespace ComponentCatalog.Extract

open Syntax

/-- How the names of handlers begin. -/
def handlerStart : String := "on"

/-- Whether a property is an event. -/
def isEvent (p : Property) : Bool :=
  Text.startsWith p.name handlerStart && (callableParameters? (Text.trim p.type)).isSome

/-- The parameters that a type shows: its parameter list if it can be called,
and the type itself otherwise. -/
def eventParameters (type : String) : String :=
  (callableParameters? (Text.trim type)).getD type

/-- The events among the properties of a component. -/
def eventsOfProperties (props : List Property) : List Event :=
  (props.filter isEvent).map fun p =>
    { name := p.name, parameters := eventParameters p.type }

/-! ## Call sites -/

/-- The values that go with an event, as the second argument of an emitter call
writes them: the elements of an array one by one, anything else as a whole. -/
def payloadText (t : Tree) (payload : Node) : String :=
  if payload.kind == .array then
    String.intercalate ", " ((payload.namedChildren.filter fun e => e.kind != .comment).map
      fun e => Text.collapse (t.text e))
  else Text.collapse (t.text payload)

/-- The parameters of the event that a call with these arguments emits. -/
def callParameters (t : Tree) (arguments : List Node) : String :=
  match arguments with
  | _ :: payload :: _ => "(" ++ payloadText t payload ++ ")"
  | _ => "()"

/-- What an emitter call says. -/
inductive EmitterCall where
  /-- It emits an event. -/
  | emits (e : Event)
  /-- Its first argument is not the name of an event. -/
  | unnamed (call : String)

/-- The event of an emitter call. -/
def EmitterCall.event? : EmitterCall → Option Event
  | emits e => some e
  | unnamed _ => none

/-- What is noted about an emitter call. -/
def EmitterCall.note? : EmitterCall → Option Log.Record
  | emits _ => none
  | unnamed call => some (Log.debug "extraction.events"
      ("Skipping emitter call without literal name: " ++ call))

/-- The calls of an emitter that have arguments, in document order. -/
def emitterCalls (t : Tree) (emitters : List String) : List EmitterCall :=
  (t.ofKinds [.callExpression]).filterMap fun call =>
    match t.calleeName? call with
    | some name =>
      if emitters.contains name then
        match ((call.inRole? .arguments).map Node.namedChildren).getD [] with
        | [] => none
        | first :: rest =>
          match (t.stringValue? first).filter fun s => !s.isEmpty with
          | some event => some (.emits
              { name := event, parameters := callParameters t (first :: rest) })
          | none => some (.unnamed (t.text call))
      else none
    | none => none

/-- The emitters that are looked for unless others are named. -/
def defaultEmitters : List String := ["invokeEventCallback"]

/-- The events that the call sites of a compiled source emit. -/
def eventsOfCalls (t : Tree) (emitters : List String) : List Event :=
  (emitterCalls t emitters).filterMap EmitterCall.event?

/-- What is noted while the call sites of a compiled source are collected. -/
def callNotes (t : Tree) (emitters : List String) : List Log.Record :=
  (emitterCalls t emitters).filterMap EmitterCall.note?

/-! ## Both together -/

/-- A list of events with one more: an event of the same name is replaced in its
place, and a new one comes last. -/
def putEvent (e : Event) : List Event → List Event
  | [] => [e]
  | x :: xs => if x.name == e.name then e :: xs else x :: putEvent e xs

/-- The events of properties and call sites together. -/
def mergeEvents (ofProperties ofCalls : List Event) : List Event :=
  ofCalls.foldl (fun merged e => putEvent e merged) (firstOfEachName Event.name [] ofProperties)

end ComponentCatalog.Extract
