import MoveDesk.Data
import MoveDesk.Proofs.Codecs
import MoveDesk.Proofs.ParameterRuns
import MoveDesk.Proofs.SocketAddresses

/-!
# The desk's values come back from their data

Each kind of value that goes in or out is read back from the JSON it is written as. So the many
forms that a value can be read from come to one: a record given as an array, or with fields that
nobody asked for, or without those that have a default, is written as an object with all of its
fields in order.

Headlines:
* **`Parameters.ofList_entries`**: a map is read back from its entries.
* **`Codec.data_roundTrips`**: every value of every kind is read back.
-/

namespace MoveDesk

/-! ## Counts -/

/-- Each count fits in 64 bits, the width that counts have where they are kept. -/
structure Growth.Fits (growth : Growth) : Prop where
  /-- The count of modules does. -/
  modules : growth.modules < UInt64.size
  /-- The count of structs does. -/
  structs : growth.structs < UInt64.size
  /-- The count of functions does. -/
  functions : growth.functions < UInt64.size

/-! ## Maps -/

/-- **A map is read back from its entries.** -/
theorem Parameters.ofList_entries (params : Parameters) : ofList params.entries = params :=
  ext_lookup fun name => by rw [lookup_ofList, lookup_reverse_of_nodup params.nodup_names]

namespace Codec

/-! ## Enumerations -/

theorem intent_roundTrips : RoundTrips Intent :=
  .of_decode?_encode fun intent => by cases intent <;> decide

theorem severity_roundTrips : RoundTrips Severity :=
  .of_decode?_encode fun severity => by cases severity <;> decide

theorem format_roundTrips : RoundTrips Format :=
  .of_decode?_encode fun format => by cases format <;> decide

/-! ## Records -/

theorem finding_roundTrips : RoundTrips Finding := by
  refine .of_decode?_encode fun ⟨severity, message⟩ => ?_
  let fields := [("severity", encode severity), ("message", encode message)]
  have hfields : (fields.map (·.1)).Nodup :=
    show (["severity", "message"] : List String).Nodup by decide
  have hseverity : required (recordOf fields) "severity" = some severity :=
    required_of_mem hfields (by simp [fields])
      (severity_roundTrips.decode?_encode severity trivial)
  have hmessage : required (recordOf fields) "message" = some message :=
    required_of_mem hfields (by simp [fields]) rfl
  exact bind_eq_some (record?_object _ fields)
    (bind_eq_some hseverity (bind_eq_some hmessage rfl))

theorem snapshot_roundTrips : RoundTrips Snapshot := by
  refine .of_decode?_encode fun ⟨modules, structs, functions⟩ => ?_
  let fields :=
    [("modules", encode modules), ("structs", encode structs), ("functions", encode functions)]
  have hfields : (fields.map (·.1)).Nodup :=
    show (["modules", "structs", "functions"] : List String).Nodup by decide
  have hmodules : required (recordOf fields) "modules" = some modules :=
    required_of_mem hfields (by simp [fields]) (decode?_encode_texts modules)
  have hstructs : required (recordOf fields) "structs" = some structs :=
    required_of_mem hfields (by simp [fields]) (decode?_encode_texts structs)
  have hfunctions : required (recordOf fields) "functions" = some functions :=
    required_of_mem hfields (by simp [fields]) (decode?_encode_texts functions)
  exact bind_eq_some (record?_object _ fields)
    (bind_eq_some hmodules (bind_eq_some hstructs (bind_eq_some hfunctions rfl)))

/-- The counts that are read fit, and those that fit are read. -/
theorem growth_roundTrips : RoundTripsOn Growth Growth.Fits := by
  refine .of_decode?_encode (fun ⟨modules, structs, functions⟩ hfits => ?_) fun _ growth h => ?_
  · let fields := [("modules_added", encode modules), ("structs_added", encode structs),
      ("functions_added", encode functions)]
    have hfields : (fields.map (·.1)).Nodup :=
      show (["modules_added", "structs_added", "functions_added"] : List String).Nodup by decide
    have hmodules : required (recordOf fields) "modules_added" = some modules :=
      required_of_mem hfields (by simp [fields]) (decode?_encode_nat hfits.modules)
    have hstructs : required (recordOf fields) "structs_added" = some structs :=
      required_of_mem hfields (by simp [fields]) (decode?_encode_nat hfits.structs)
    have hfunctions : required (recordOf fields) "functions_added" = some functions :=
      required_of_mem hfields (by simp [fields]) (decode?_encode_nat hfits.functions)
    exact bind_eq_some (record?_object _ fields)
      (bind_eq_some hmodules (bind_eq_some hstructs (bind_eq_some hfunctions rfl)))
  · obtain ⟨r, -, h⟩ := Option.bind_eq_some_iff.mp h
    obtain ⟨modules, hmodules, h⟩ := Option.bind_eq_some_iff.mp h
    obtain ⟨structs, hstructs, h⟩ := Option.bind_eq_some_iff.mp h
    obtain ⟨functions, hfunctions, h⟩ := Option.bind_eq_some_iff.mp h
    cases h
    exact ⟨lt_of_required_nat hmodules, lt_of_required_nat hstructs,
      lt_of_required_nat hfunctions⟩

theorem templateEntry_roundTrips : RoundTrips TemplateEntry := by
  refine .of_decode?_encode fun ⟨patternId, intent, description, keys⟩ => ?_
  let fields := [("pattern_id", encode patternId), ("intent", encode intent),
    ("description", encode description), ("keys", encode keys)]
  have hfields : (fields.map (·.1)).Nodup :=
    show (["pattern_id", "intent", "description", "keys"] : List String).Nodup by decide
  have hid : required (recordOf fields) "pattern_id" = some patternId :=
    required_of_mem hfields (by simp [fields]) rfl
  have hintent : required (recordOf fields) "intent" = some intent :=
    required_of_mem hfields (by simp [fields]) (intent_roundTrips.decode?_encode intent trivial)
  have hdescription : required (recordOf fields) "description" = some description :=
    required_of_mem hfields (by simp [fields]) rfl
  have hkeys : required (recordOf fields) "keys" = some keys :=
    required_of_mem hfields (by simp [fields]) (decode?_encode_texts keys)
  exact bind_eq_some (record?_object _ fields)
    (bind_eq_some hid (bind_eq_some hintent (bind_eq_some hdescription (bind_eq_some hkeys rfl))))

/-! ## Lists and maps of names -/

theorem nameList_roundTrips : RoundTrips NameList :=
  .of_decode?_encode fun ⟨names⟩ => bind_eq_some (decode?_encode_texts names) rfl

theorem parameters_roundTrips : RoundTrips Parameters := by
  refine .of_decode?_encode fun params => ?_
  have hentries : (params.entries.map fun entry => (entry.1, encode entry.2)).mapM
      (fun entry => do return (entry.1, ← (decode? entry.2 : Option String))) =
        some params.entries :=
    mapM_map_of_forall params.entries fun _ _ => rfl
  exact bind_eq_some hentries (congrArg some params.ofList_entries)

/-! ## Settings -/

theorem address_roundTrips : RoundTrips SocketAddress :=
  .of_decode?_encode SocketAddress.parse?_text

theorem serverSettings_roundTrips : RoundTrips ServerSettings := by
  refine .of_decode?_encode fun ⟨address, cors⟩ => ?_
  let fields := [("listen_addr", encode address), ("enable_cors", encode cors)]
  have hfields : (fields.map (·.1)).Nodup :=
    show (["listen_addr", "enable_cors"] : List String).Nodup by decide
  have haddress : withDefault .standard (recordOf fields) "listen_addr" = some address :=
    withDefault_of_mem hfields (by simp [fields])
      (address_roundTrips.decode?_encode address trivial)
  have hcors : withDefault true (recordOf fields) "enable_cors" = some cors :=
    withDefault_of_mem hfields (by simp [fields]) rfl
  exact bind_eq_some (record?_object _ fields) (bind_eq_some haddress (bind_eq_some hcors rfl))

theorem logSettings_roundTrips : RoundTrips LogSettings := by
  refine .of_decode?_encode fun ⟨level, json⟩ => ?_
  let fields := [("level", encode level), ("json", encode json)]
  have hfields : (fields.map (·.1)).Nodup :=
    show (["level", "json"] : List String).Nodup by decide
  have hlevel : withDefault "info" (recordOf fields) "level" = some level :=
    withDefault_of_mem hfields (by simp [fields]) rfl
  have hjson : withDefault false (recordOf fields) "json" = some json :=
    withDefault_of_mem hfields (by simp [fields]) rfl
  exact bind_eq_some (record?_object _ fields) (bind_eq_some hlevel (bind_eq_some hjson rfl))

theorem settings_roundTrips : RoundTrips Settings := by
  refine .of_decode?_encode fun ⟨output, server, logging⟩ => ?_
  let fields :=
    [("output", encode output), ("server", encode server), ("logging", encode logging)]
  have hfields : (fields.map (·.1)).Nodup :=
    show (["output", "server", "logging"] : List String).Nodup by decide
  have houtput : withDefault .text (recordOf fields) "output" = some output :=
    withDefault_of_mem hfields (by simp [fields]) (format_roundTrips.decode?_encode output trivial)
  have hserver : withDefault {} (recordOf fields) "server" = some server :=
    withDefault_of_mem hfields (by simp [fields])
      (serverSettings_roundTrips.decode?_encode server trivial)
  have hlogging : withDefault {} (recordOf fields) "logging" = some logging :=
    withDefault_of_mem hfields (by simp [fields])
      (logSettings_roundTrips.decode?_encode logging trivial)
  exact bind_eq_some (record?_object _ fields)
    (bind_eq_some houtput (bind_eq_some hserver (bind_eq_some hlogging rfl)))

/-- **Every value of every kind is read back** from the data it is written as, counts as far as they
fit in 64 bits; and what is read of any data at all is written as data that are read as the same
value and written as themselves. -/
theorem data_roundTrips :
    RoundTrips Intent ∧ RoundTrips Severity ∧ RoundTrips Finding ∧ RoundTrips Snapshot ∧
      RoundTripsOn Growth Growth.Fits ∧ RoundTrips NameList ∧ RoundTrips Parameters ∧
      RoundTrips TemplateEntry ∧ RoundTrips Format ∧ RoundTrips ServerSettings ∧
      RoundTrips LogSettings ∧ RoundTrips Settings :=
  ⟨intent_roundTrips, severity_roundTrips, finding_roundTrips, snapshot_roundTrips,
    growth_roundTrips, nameList_roundTrips, parameters_roundTrips, templateEntry_roundTrips,
    format_roundTrips, serverSettings_roundTrips, logSettings_roundTrips, settings_roundTrips⟩

/-- Settings with a label in an object, a group in an array, a field that nobody asked for and
others left out are written as settings in full, which are read as the same. The largest counts are
read back as well. -/
theorem data_roundTrips_settings :
    let json : Json := .object [("output", .object [("yaml", .null)]),
      ("server", .array [.text "[0:0:0:0:0:0:0:1%07]:80"]), ("spare", .nat 1)]
    let settings : Settings :=
      { output := .yaml
        server := { listenAddress := ⟨.v6 #v[0, 0, 0, 0, 0, 0, 0, 1] 7, 80⟩ } }
    let growth : Growth := ⟨0, 1, UInt64.size - 1⟩
    decode? json = some settings ∧ decode? (encode settings) = some settings ∧
      growth.Fits ∧ decode? (encode growth) = some growth := by
  intro json settings growth
  have hread : decode? json = some settings := by decide +kernel
  have hfits : growth.Fits := by constructor <;> decide
  obtain ⟨-, -, -, -, hgrowth, -, -, -, -, -, -, hsettings⟩ := data_roundTrips
  exact ⟨hread, hsettings.decode?_encode settings trivial, hfits,
    hgrowth.decode?_encode growth hfits⟩

end Codec

end MoveDesk
