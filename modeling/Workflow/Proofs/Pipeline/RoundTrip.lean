import Mathlib.Data.List.Permutation
import Workflow.Pipeline.Printer
import Workflow.Proofs.Json.Record
import Workflow.Proofs.Pipeline.Reading

/-!
# Documents that are read back

What is written of a step are its common fields, the fields of its action beside them, and the steps
inside it. No two of these fields have one name, so that each is found again by the part of the
reader that wants it. What is left out has the value that the reader takes for what is missing. So a
document that has been read once is written as a value that is read as the same document.
-/
namespace Workflow
open Record

namespace Record.Reads
variable {t : Table Json} {name : String}

theorem optionalAny {o : Option Json} (h : t.get? name = o) (hnull : o ≠ some .null) :
    Reads t (.optional name .any) o := by
  cases o with
  | none => exact .absent h rfl
  | some v => exact .field h (Decoder.nullable_eq (fun hv => hnull (congrArg some hv)) rfl)

end Record.Reads

theorem MergeStrategy.choice_toJson (s : MergeStrategy) :
    Decoder.choice known s.toJson = .ok s := by
  cases s <;> rfl

theorem ExecutionMode.choice_toJson (m : ExecutionMode) :
    Decoder.choice known m.toJson = .ok m := by
  cases m
  rfl

theorem PluginCall.reads {c : PluginCall} {t : Table Json} (h : ∀ f ∈ c.fields, t.get? f.1 = f.2) :
    Reads t record c := by
  simp only [fields, textField, List.forall_mem_cons] at h
  obtain ⟨hplugin, hconfig, hinput, houtput, -⟩ := h
  have readConfig : Reads t (.withDefault "config" .table .empty) c.config := by
    by_cases hc : c.config.isEmpty
    · rw [if_pos hc] at hconfig
      have hempty : c.config = .empty := congrArg Table.mk (List.isEmpty_iff.mp hc)
      exact hempty ▸ .absent hconfig rfl
    · rw [if_neg hc] at hconfig
      exact .field hconfig rfl
  exact (((Reads.optionalText hplugin |>.map PluginCall.mk).seq readConfig).seq
    (.optionalText hinput)).seq (.optionalText houtput)

namespace StoreOperation

/-- A table that shows the fields of an operation is read as it. -/
theorem ofTable_eq {op : StoreOperation} {t : Table Json} (ht : t.Sorted)
    (h : ∀ f ∈ op.fields, t.get? f.1 = f.2) : ofTable t = .ok op := by
  have hname : t.get? "operation" = some (.str op.name) := h _ List.mem_cons_self
  have read {r : Record StoreOperation} (hr : Reads (t.erase "operation") r op)
      (hk : Decoder.tag known (.str op.name) = .ok r) : ofTable t = .ok op := by
    rw [ofTable, hname]
    change (Decoder.tag known _ >>= fun r => r.ofTable _) = _
    rw [hk]
    exact hr.ofTable (ht.erase _)
  have shown {name : String} {v : Option Json} (hv : t.get? name = v)
      (hne : name ≠ "operation") : (t.erase "operation").get? name = v := by
    rw [Table.get?_erase, if_neg hne, hv]
  cases op <;> simp only [fields, textField, List.forall_mem_cons] at h
  case merge ns values strategy =>
    obtain ⟨-, hns, hvalues, hstrategy, -⟩ := h
    have readValues : Reads (t.erase "operation") (.required "values" .table) values :=
      .field (shown hvalues (by decide)) rfl
    have readStrategy : Reads (t.erase "operation")
        (.withDefault "strategy" (.choice MergeStrategy.known) .overwrite) strategy :=
      .field (shown hstrategy (by decide)) strategy.choice_toJson
    exact read ((((Reads.text (shown hns (by decide))).map merge).seq readValues).seq
      readStrategy) rfl
  case snapshot ns =>
    obtain ⟨-, hns, -⟩ := h
    exact read ((Reads.text (shown hns (by decide))).map snapshot) rfl
  case restore id =>
    obtain ⟨-, hid, -⟩ := h
    have readId : Reads (t.erase "operation") (.required "snapshot_id" .any) id :=
      .field (shown hid (by decide)) rfl
    exact read (readId.map restore) rfl
  case delete ns key =>
    obtain ⟨-, hns, hkey, -⟩ := h
    exact read (((Reads.text (shown hns (by decide))).map delete).seq
      (.optionalText (shown hkey (by decide)))) rfl
  case save ns =>
    obtain ⟨-, hns, -⟩ := h
    exact read ((Reads.optionalText (shown hns (by decide))).map save) rfl
  case load ns =>
    obtain ⟨-, hns, -⟩ := h
    exact read ((Reads.optionalText (shown hns (by decide))).map load) rfl
  case deleteStored ns key =>
    obtain ⟨-, hns, hkey, -⟩ := h
    exact read (((Reads.text (shown hns (by decide))).map deleteStored).seq
      (.optionalText (shown hkey (by decide)))) rfl

theorem fields_ne {op : StoreOperation} : ∀ f ∈ op.fields, f.1 ≠ "output_key" := by
  cases op <;> simp [fields, textField]

/-- So it is if the key for the result stands beside them. -/
theorem withOutput_eq {op : StoreOperation} {outputKey : Option String} {t : Table Json}
    (ht : t.Sorted) (h : ∀ f ∈ op.fields, t.get? f.1 = f.2)
    (hkey : t.get? "output_key" = outputKey.map Json.str) :
    withOutput t = .ok (op, outputKey) := by
  have houtput : outputRecord.ofTable t = .ok outputKey := (Reads.optionalText hkey).ofTable ht
  have hop : ofTable (outputRecord.others t) = .ok op := by
    refine ofTable_eq (ht.filter _) fun f hf => ?_
    rw [others_get? (fun hm => fields_ne f hf (List.mem_singleton.mp hm))]
    exact h f hf
  rw [withOutput, houtput]
  change (ofTable _ >>= fun op => Except.ok (op, outputKey)) = _
  rw [hop]
  rfl

end StoreOperation

/-- A table that shows the fields of an action is read as it, if the action makes sense. -/
theorem Action.ofTable_eq {step : String} {iterates : Bool} {action : Action} {t : Table Json}
    (ht : t.Sorted) (h : ∀ f ∈ action.fields, t.get? f.1 = f.2) (hl : action.Legal iterates) :
    ofTable step action.typeName iterates t = .ok action := by
  have read {r : Record Action} (hr : Reads t r action) :
      (r.ofTable t).mapError (ReadError.badStep step) = .ok action := by
    rw [hr.ofTable ht]
    rfl
  have readAny {name : String} {v : Json} (hv : t.get? name = some v) :
      Reads t (.required name .any) v := .field hv rfl
  cases action
  case plugin call =>
    change ((PluginCall.record.ofTable t).mapError (ReadError.badStep step) >>= fun call => _) = _
    rw [(PluginCall.reads h).ofTable ht]
    have hc : (!call.plugin.isSome && !iterates) = false := by
      rcases hl.plugin call rfl with hp | hi
      · rw [Option.isSome_iff_ne_none.mpr hp, Bool.not_true, Bool.false_and]
      · rw [hi, Bool.not_true, Bool.and_false]
    change (if !call.plugin.isSome && !iterates then _ else _) = _
    rw [hc]
    rfl
  case operate op outputKey =>
    obtain ⟨hop, hkey⟩ := List.forall_mem_append.mp h
    change ((StoreOperation.withOutput t).mapError (ReadError.badStep step) >>= fun x => _) = _
    rw [StoreOperation.withOutput_eq ht hop (hkey _ List.mem_cons_self)]
    rfl
  case leaveLoop => rfl
  case nextItem => rfl
  -- the other actions are records of the fields that they write
  all_goals simp only [fields, textField, List.forall_mem_cons] at h
  case conditional condition => exact read ((Reads.text h.1).map conditional)
  case jump target condition =>
    exact read (((Reads.text h.1).map jump).seq (.optionalText h.2.1))
  case setContext path value =>
    exact read (((Reads.text h.1).map setContext).seq (readAny h.2.1))
  case loadContext path destination default =>
    have hdefault : default ≠ some .null := by
      rintro rfl
      exact hl.default path destination rfl
    exact read ((((Reads.text h.1).map loadContext).seq (.optionalText h.2.1)).seq
      (.optionalAny h.2.2.1 hdefault))
  case appendContext path value =>
    exact read (((Reads.text h.1).map appendContext).seq (readAny h.2.1))
  case saveContext source path =>
    exact read (((Reads.text h.1).map saveContext).seq (.text h.2.1))

/-- No field of an action has the name of one that all steps have. -/
theorem Action.fields_own (action : Action) :
    ∀ f ∈ action.fields, f.1 ∉ Step.Common.record.names := by
  have hnames :
      Step.Common.record.names = ["name", "type", "description", "iterate", "steps"] := rfl
  rw [hnames]
  cases action with
  | operate op outputKey => cases op <;> simp [textField, Action.fields, StoreOperation.fields]
  | _ => simp [textField, Action.fields, PluginCall.fields]

namespace Step

def commonFields (st : Step) : List (String × Option Json) :=
  [textField "name" (some st.name), textField "description" st.description,
    textField "iterate" st.iterate, textField "type" (some st.action.typeName)]

def stepsField (st : Step) : String × Option Json :=
  ("steps", if st.steps.isEmpty then none else some (.arr (listToJson st.steps)))

/-- A step as a table, which shows its fields and those of its action. -/
theorem toJson_get? (st : Step) :
    ∃ t : Table Json, st.toJson = .obj t ∧ t.Sorted ∧ (∀ f ∈ st.commonFields, t.get? f.1 = f.2) ∧
      (∀ f ∈ st.action.fields, (Common.record.others t).get? f.1 = f.2) ∧
        t.get? "steps" = st.stepsField.2 := by
  have hdistinct : (st.commonFields ++ st.action.fields ++ [st.stepsField]).Pairwise
      fun f g => f.1 ≠ g.1 := by
    cases st.action with
    | operate op outputKey =>
      cases op <;>
        simp [commonFields, stepsField, textField, Action.fields, StoreOperation.fields]
    | _ => simp [commonFields, stepsField, textField, Action.fields, PluginCall.fields]
  obtain ⟨t, ht, hsorted, hget⟩ := Json.ofFields_get? hdistinct
  obtain ⟨⟨hcommon, haction⟩, hsteps⟩ : ((∀ f ∈ st.commonFields, t.get? f.1 = f.2) ∧
      ∀ f ∈ st.action.fields, t.get? f.1 = f.2) ∧ ∀ f ∈ [st.stepsField], t.get? f.1 = f.2 := by
    rwa [List.forall_mem_append, List.forall_mem_append] at hget
  refine ⟨t, ?_, hsorted, hcommon, fun f hf => ?_, hsteps _ List.mem_cons_self⟩
  · cases st
    exact ht
  · rw [others_get? (Action.fields_own _ f hf)]
    exact haction f hf

theorem ofItems_eq {steps : List Step} (h : ∀ st ∈ steps, ofJson st.toJson = .ok st) :
    ofItems (listToJson steps) = .ok steps := by
  induction steps with
  | nil => rfl
  | cons st steps ih =>
    obtain ⟨hst, hsteps⟩ := List.forall_mem_cons.mp h
    rw [listToJson, ofItems, hst]
    change (ofItems _ >>= fun steps => Except.ok (st :: steps)) = _
    rw [ih hsteps]
    rfl

/-- A table that shows the common fields and the steps inside is read as them. -/
theorem common_reads {st : Step} {t : Table Json} (h : ∀ f ∈ st.commonFields, t.get? f.1 = f.2)
    (hsteps : t.get? "steps" = st.stepsField.2) :
    Reads t Common.record ⟨st.name, some st.action.typeName, st.description, st.iterate⟩ := by
  simp only [commonFields, textField, List.forall_mem_cons] at h
  obtain ⟨hname, hdescription, hiterate, htype, -⟩ := h
  have readSteps : ∃ items, Reads t (.withDefault "steps" (.list .any) []) items := by
    unfold stepsField at hsteps
    split at hsteps
    · exact ⟨[], .absent hsteps rfl⟩
    · exact ⟨_, .field hsteps (Decoder.list_any _)⟩
  obtain ⟨items, readItems⟩ := readSteps
  let build (name : String) (type description iterate : Option String) (_ : List Json) :=
    Common.mk name type description iterate
  exact (((((Reads.text hname).map build).seq (.optionalText htype)).seq
    (.optionalText hdescription)).seq (.optionalText hiterate)).seq readItems

/-- A table that shows all fields of a step that makes sense is read as it, but for the steps
inside. -/
theorem shallow_eq {st : Step} {t : Table Json} (ht : t.Sorted)
    (hcommon : ∀ f ∈ st.commonFields, t.get? f.1 = f.2)
    (haction : ∀ f ∈ st.action.fields, (Common.record.others t).get? f.1 = f.2)
    (hsteps : t.get? "steps" = st.stepsField.2) (hl : st.action.Legal st.iterate.isSome) :
    shallow (.obj t) = .ok ⟨st.name, st.description, st.iterate, st.action, []⟩ := by
  have hothers : (Common.record.others t).Sorted := ht.filter _
  have hcontrol : (st.iterate.isSome && st.action.isControl) = false := by
    cases hc : st.action.isControl with
    | false => exact Bool.and_false _
    | true => rw [hl.control hc, Bool.false_and]
  rw [shallow, Record.decodeObject, (common_reads hcommon hsteps).ofTable ht]
  change (Action.ofTable st.name st.action.typeName st.iterate.isSome _ >>= fun action => _) = _
  rw [Action.ofTable_eq hothers haction hl]
  change (if st.iterate.isSome && st.action.isControl then _ else _) = _
  rw [hcontrol]
  rfl

/-- A step that makes sense is read back from its value. -/
theorem ofJson_toJson {st : Step} (h : st.Legal) : ofJson st.toJson = .ok st := by
  induction h with
  | @intro st hl _ ih =>
    obtain ⟨t, ht, hsorted, hcommon, haction, hsteps⟩ := st.toJson_get?
    have hmembers : ofMembers t.entries = .ok st.steps := by
      unfold stepsField at hsteps
      split at hsteps
      · rename_i hempty
        rw [ofMembers_nil hsteps, List.isEmpty_iff.mp hempty]
      · rw [ofMembers_eq hsteps, ofItems_eq ih]
    rw [ht]
    change (shallow (.obj t) >>= fun step => ofMembers t.entries >>= fun steps => _) = _
    rw [shallow_eq hsorted hcommon haction hsteps hl, hmembers]
    cases st
    rfl

end Step

theorem Pipeline.ofJson_toJson {p : Pipeline} (h : ∀ st ∈ p.steps, st.Legal) :
    ofJson p.toJson = .ok p := by
  have hdistinct : [textField "name" (some p.name), textField "description" p.description,
      ("steps", some (.arr (Step.listToJson p.steps))), ("enabled", some (.bool p.enabled)),
      ("execution_mode", some p.mode.toJson), textField "schedule" p.schedule].Pairwise
      fun f g => f.1 ≠ g.1 := by simp [textField]
  obtain ⟨t, ht, hsorted, hget⟩ := Json.ofFields_get? hdistinct
  simp only [textField, List.forall_mem_cons] at hget
  obtain ⟨hname, hdescription, hsteps, henabled, hmode, hschedule, -⟩ := hget
  have readSteps : Reads t (.withDefault "steps" (.list .any) []) (Step.listToJson p.steps) :=
    .field hsteps (Decoder.list_any _)
  have readEnabled : Reads t (.withDefault "enabled" .truth true) p.enabled :=
    .field henabled rfl
  have readMode : Reads t (.withDefault "execution_mode" (.choice ExecutionMode.known) .sequential)
      p.mode := .field hmode p.mode.choice_toJson
  let build (name : String) (description : Option String) (steps : List Json) (enabled : Bool)
      (mode : ExecutionMode) (schedule : Option String) :=
    (Pipeline.mk name description [] enabled mode schedule, steps)
  have hread : record.ofTable t = .ok ({ p with steps := [] }, Step.listToJson p.steps) :=
    ((((((Reads.text hname).map build).seq (.optionalText hdescription)).seq readSteps).seq
      readEnabled).seq readMode).seq (.optionalText hschedule) |>.ofTable hsorted
  have hjson : p.toJson = .obj t := ht
  rw [hjson, ofJson, Record.decode, Record.decodeIn, hread]
  change (Step.ofItems (Step.listToJson p.steps) >>= fun steps => _) = _
  rw [Step.ofItems_eq fun st hst => Step.ofJson_toJson (h st hst)]
  rfl

theorem Pipeline.ofItems_map_toJson {pipelines : List Pipeline} {names : List String}
    (hdistinct : (pipelines.map Pipeline.name).Nodup) (hnew : ∀ p ∈ pipelines, p.name ∉ names)
    (h : ∀ p ∈ pipelines, ∀ st ∈ p.steps, st.Legal) :
    ofItems names (pipelines.map toJson) = .ok pipelines := by
  induction pipelines generalizing names with
  | nil => rfl
  | cons p pipelines ih =>
    obtain ⟨hp, hrest⟩ := List.forall_mem_cons.mp h
    obtain ⟨hnamed, hdistinct⟩ := List.nodup_cons.mp hdistinct
    obtain ⟨hfresh, hnew⟩ := List.forall_mem_cons.mp hnew
    have hlater : ofItems (p.name :: names) (pipelines.map toJson) = .ok pipelines := by
      refine ih hdistinct (fun q hq hm => ?_) hrest
      rcases List.mem_cons.mp hm with heq | hm
      · exact hnamed (heq ▸ List.mem_map_of_mem hq)
      · exact hnew q hq hm
    rw [List.map_cons, ofItems, ofJson_toJson hp]
    change (if names.contains p.name then _ else _) = _
    rw [if_neg (by simpa using hfresh)]
    change (ofItems _ _ >>= fun pipelines => Except.ok (p :: pipelines)) = _
    rw [hlater]
    rfl

/-- A document that has been read is written as a value that is read as the same document. -/
theorem document_round_trip {v : Json} {d : PipelineDocument}
    (h : PipelineDocument.ofJson v = .ok d) : PipelineDocument.ofJson d.toJson = .ok d := by
  obtain ⟨hdistinct, hlegal⟩ := PipelineDocument.ofJson_legal h
  have hitems := Pipeline.ofItems_map_toJson hdistinct (fun _ _ => List.not_mem_nil) hlegal
  change (Pipeline.ofItems [] (d.pipelines.map Pipeline.toJson) >>= fun pipelines =>
    Except.ok (PipelineDocument.mk pipelines)) = _
  rw [hitems]
  rfl

/-- A loop around a step with a default of null, and an operation that is named by its number. -/
theorem document_round_trip_loop :
    let loading := Json.mkObj [("name", .str "a"), ("type", .str "load_context"),
      ("path", .str "n.k"), ("default", .null)]
    let restoring := Json.mkObj [("name", .str "b"), ("type", .str "context_operation"),
      ("operation", .int 2), ("snapshot_id", .null), ("surplus", .bool true)]
    let loop := Json.mkObj [("name", .str "c"), ("iterate", .str "context.xs"),
      ("steps", .arr [loading, restoring])]
    let v := Json.mkObj [("pipelines", .arr [.mkObj [("name", .str "p"),
      ("execution_mode", .mkObj [("sequential", .null)]), ("steps", .arr [loop])]])]
    let d : PipelineDocument := ⟨[⟨"p", none, [⟨"c", none, some "context.xs",
      .plugin ⟨none, .empty, none, none⟩, [⟨"a", none, none, .loadContext "n.k" none none, []⟩,
        ⟨"b", none, none, .operate (.restore .null) none, []⟩]⟩], true, .sequential, none⟩]⟩
    PipelineDocument.ofJson v = .ok d ∧ PipelineDocument.ofJson d.toJson = .ok d := by
  intro loading restoring loop v d
  have hread : PipelineDocument.ofJson v = .ok d := by cbv
  exact ⟨hread, document_round_trip hread⟩

end Workflow
