import MoveDesk.Context
import MoveDesk.Finding
import MoveDesk.Json.Codec
import MoveDesk.Settings.Basic
import MoveDesk.Template.Basic

/-!
# The desk's values as data

The JSON form of each kind of value that goes in or out.
-/

namespace MoveDesk

open Codec

instance : Codec Intent where
  encode intent := .text intent.label
  decode? := labelled? Intent.ofLabel?

instance : Codec Severity where
  encode severity := .text severity.label
  decode? := labelled? Severity.ofLabel?

instance : Codec Finding where
  encode f := .object [("severity", encode f.severity), ("message", encode f.message)]
  decode? j := do
    let r ← record? ["severity", "message"] j
    return { severity := ← required r "severity", message := ← required r "message" }

instance : Codec Snapshot where
  encode s := .object
    [("modules", encode s.modules), ("structs", encode s.structs), ("functions", encode s.functions)]
  decode? j := do
    let r ← record? ["modules", "structs", "functions"] j
    return {
      modules := ← required r "modules"
      structs := ← required r "structs"
      functions := ← required r "functions" }

instance : Codec Growth where
  encode g := .object
    [("modules_added", encode g.modules), ("structs_added", encode g.structs),
      ("functions_added", encode g.functions)]
  decode? j := do
    let r ← record? ["modules_added", "structs_added", "functions_added"] j
    return {
      modules := ← required r "modules_added"
      structs := ← required r "structs_added"
      functions := ← required r "functions_added" }

instance : Codec NameList where
  encode l := encode l.names
  decode? j := do return ⟨← decode? j⟩

instance : Codec Parameters where
  encode p := .object (p.entries.map fun (name, value) => (name, encode value))
  decode?
    | .object fields => do
      return .ofList (← fields.mapM fun (name, value) => do return (name, ← decode? value))
    | _ => none

instance : Codec TemplateEntry where
  encode e := .object
    [("pattern_id", encode e.patternId), ("intent", encode e.intent),
      ("description", encode e.description), ("keys", encode e.keys)]
  decode? j := do
    let r ← record? ["pattern_id", "intent", "description", "keys"] j
    return {
      patternId := ← required r "pattern_id"
      intent := ← required r "intent"
      description := ← required r "description"
      keys := ← required r "keys" }

instance : Codec Format where
  encode format := .text format.label
  decode? := labelled? Format.ofLabel?

instance : Codec SocketAddress where
  encode address := .text address.text
  decode?
    | .text text => SocketAddress.parse? text
    | _ => none

instance : Codec ServerSettings where
  encode s := .object
    [("listen_addr", encode s.listenAddress), ("enable_cors", encode s.enableCors)]
  decode? j := do
    let default : ServerSettings := {}
    let r ← record? ["listen_addr", "enable_cors"] j
    return {
      listenAddress := ← withDefault default.listenAddress r "listen_addr"
      enableCors := ← withDefault default.enableCors r "enable_cors" }

instance : Codec LogSettings where
  encode s := .object [("level", encode s.level), ("json", encode s.json)]
  decode? j := do
    let default : LogSettings := {}
    let r ← record? ["level", "json"] j
    return {
      level := ← withDefault default.level r "level"
      json := ← withDefault default.json r "json" }

instance : Codec Settings where
  encode s := .object
    [("output", encode s.output), ("server", encode s.server), ("logging", encode s.logging)]
  decode? j := do
    let default : Settings := {}
    let r ← record? ["output", "server", "logging"] j
    return {
      output := ← withDefault default.output r "output"
      server := ← withDefault default.server r "server"
      logging := ← withDefault default.logging r "logging" }

end MoveDesk
