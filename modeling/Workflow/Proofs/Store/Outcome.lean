import Workflow.Proofs.Store.Entries

/-!
# How calls end

A call that is not refused does one thing to the data or to history, and leaves entries about its
actor. The rules tell for every call what it answers and which store it leaves: what was done to
the data, what was asked of objects and of the backend, and that nothing came of the rest but
entries.
-/
namespace Workflow
open Attempt
variable {σ α : Type}

namespace Store

/-- The store with a value in the place of another one, whose object is released. -/
def overwrite (env : Environment σ) (ns key : String) (v : Json) (s : Store σ) : Store σ :=
  (release env (s.data.value? ns key) v (s.mapData (·.write s.now ns key v))).2

/-- The store with a namespace merged with values; the objects of the values that gave way are
released. -/
def mergeIn (env : Environment σ) (ns : String) (values : Table Json) (strategy : MergeStrategy)
    (s : Store σ) : Store σ :=
  let merged := s.data.merge s.now ns values strategy
  (releaseAll env merged.conflicts merged.written (s.mapData fun _ => merged.data)).2

end Store

/-- The data after a look at a key or a namespace, which counts if there is something to see. -/
def StoreData.look (d : StoreData) (now : Instant) (ns : String) (key : Option String) :
    StoreData :=
  if (d.values.find ns key).isSome then d.recordRead now ns key else d

theorem StoreData.values_look (d : StoreData) (now : Instant) (ns : String)
    (key : Option String) : (d.look now ns key).values = d.values := by
  unfold look
  split
  · exact recordRead_values d now ns key
  · rfl

theorem StoreData.value?_look (d : StoreData) (now : Instant) (ns : String) (key : Option String)
    (ns' key' : String) : (d.look now ns key).value? ns' key' = d.value? ns' key' :=
  congrArg (Values.value? · ns' key') (d.values_look now ns key)

open Store in
/-- What a call answers, and the store that it leaves. -/
inductive StoreCall.Ends (env : Environment σ) (actor : Actor) (s : Store σ) :
    StoreCall → Except StoreError StoreAnswer → Store σ → Prop
  | failed {call e t} : Noted env actor s t → Ends env actor s call (.error e) t
  | kept {ns key v opts t} : (s.data.value? ns key).isSome → Noted env actor s t →
      Ends env actor s (.set ns key v opts) (.ok (.flag false)) t
  | set {ns key v opts t} : Noted env actor (s.overwrite env ns key v) t →
      Ends env actor s (.set ns key v opts) (.ok (.flag true)) t
  | read {ns key t} : Noted env actor (s.mapData (·.look s.now ns (some key))) t →
      Ends env actor s (.read ns key) (.ok (.value (s.data.value? ns key))) t
  | readSpace {ns t} : Noted env actor (s.mapData (·.look s.now ns none)) t →
      Ends env actor s (.readSpace ns) (.ok (.values (s.data.space? ns))) t
  | delete {ns key u t} : Noted env actor (s.mapData (·.remove ns key)) u →
      dropObjects env (referencesIn key (s.data.values.find ns key)) u = (.ok ⟨⟩, t) →
      Ends env actor s (.delete ns key) (.ok (.flag (s.data.values.find ns key).isSome)) t
  | undeleted {ns key u e t} : Noted env actor (s.mapData (·.remove ns key)) u →
      dropObjects env (referencesIn key (s.data.values.find ns key)) u = (.error e, t) →
      Ends env actor s (.delete ns key) (.error e) t
  | contains {ns key t} : Noted env actor s t →
      Ends env actor s (.contains ns key) (.ok (.flag (s.data.value? ns key).isSome)) t
  | keys {ns} :
      Ends env actor s (.keys ns) (.ok (.names (s.data.values.space ns).keys)) s
  | append {ns key v items t} : listOf ⟨ns, key⟩ (s.data.value? ns key) = .ok items →
      Noted env actor (s.mapData (·.write s.now ns key (.arr (items ++ [v])))) t →
      Ends env actor s (.append ns key v) (.ok (.number (items.length + 1))) t
  | merge {ns values strategy t} : Noted env actor (s.mergeIn env ns values strategy) t →
      Ends env actor s (.merge ns values strategy)
        (.ok (.conflicts (s.data.merge s.now ns values strategy).conflicts)) t
  | snapshot {ns t} :
      Noted env actor { s with history := s.history ++ [s.picture ns] } t →
      Ends env actor s (.snapshot ns) (.ok (.number (s.history.length + 1))) t
  | unknown {id t} : s.snapshot? id = none → Noted env actor s t →
      Ends env actor s (.restore id) (.ok (.flag false)) t
  | restore {id snap t} : s.snapshot? id = some snap →
      Noted env actor (s.mapData (·.replace s.now snap.ns snap.values)) t →
      Ends env actor s (.restore id) (.ok (.flag true)) t
  | unwritten {ns key source metadata e u t} :
      writePayload env ns key source metadata s = (.error e, u) → Noted env actor u t →
      Ends env actor s (.savePayload ns key source metadata) (.error e) t
  | savePayload {ns key source metadata w u t} :
      writePayload env ns key source metadata s = (.ok w, u) →
      Noted env actor (u.overwrite env ns key w.descriptor.toJson) t →
      Ends env actor s (.savePayload ns key source metadata) (.ok (.descriptor w.descriptor)) t
  | payload {call ns key r u x t} : call = .loadPayload ns key ∨ call = .openPayload ns key →
      Noted env actor (s.mapData (·.look s.now ns (some key))) u →
      (x = u.outside ∨ ∃ o ∈ env.objects, ∃ path : StorePath,
        x = (o.openSource path.ns path.key u.outside).2) →
      Noted env actor { u with outside := x } t → Ends env actor s call r t
  | unlisted {call ns b names u e t} : call = .save ns ∨ call = .load ns → b ∈ env.backend →
      storedSpaces b ns s = (.ok names, u) → Noted env actor u t →
      Ends env actor s call (.error e) t
  | save {ns b names u done v t} : b ∈ env.backend → storedSpaces b ns s = (.ok names, u) →
      onOutside (b.syncAll (scope u.data.values names ns).entries) u = (.ok done, v) →
      Noted env actor v t → Ends env actor s (.save ns) (.ok (.flag done)) t
  | load {ns b names u n v t} : b ∈ env.backend → storedSpaces b ns s = (.ok names, u) →
      loadAll b (ns.elim names fun ns => [ns]) u = (.ok n, v) → Noted env actor v t →
      Ends env actor s (.load ns) (.ok (.flag (n == (ns.elim names fun ns => [ns]).length))) t
  | deleteStored {ns key b done u t} : b ∈ env.backend →
      onOutside (b.tryDelete ns key) s = (.ok done, u) → Noted env actor u t →
      Ends env actor s (.deleteStored ns key) (.ok (.flag done)) t

namespace Store
variable {env : Environment σ} {actor : Actor} {s t u : Store σ}

theorem set_ends {ns key : String} {v : Json} {opts : SetOptions} {r : Except StoreError Bool}
    (h : Store.set env actor ns key v opts s = (r, t)) :
    StoreCall.Ends env actor s (.set ns key v opts) (r.map .flag) t := by
  obtain ⟨e, rfl, hn⟩ | h := (authorize_gate _ _ _).bind_cases h
  · exact .failed hn
  obtain ⟨e, rfl, hn⟩ | h := (checkValue_gate _ _ _).bind_cases h
  · exact .failed hn
  rw [get_bind] at h
  split at h
  · rename_i hkept
    obtain ⟨rfl, hn⟩ := logged h fun _ => rfl
    exact .kept (Bool.and_eq_true_iff.mp hkept).1 hn
  · rw [modify_bind, lift_bind] at h
    obtain ⟨rfl, hn⟩ := logged h fun _ => rfl
    exact .set hn

theorem mapData_look_of_some {ns : String} {key : Option String} {v : Json}
    (h : s.data.values.find ns key = some v) :
    s.mapData (·.look s.now ns key) = s.mapData (·.recordRead s.now ns key) := by
  simp [mapData, StoreData.look, h]

theorem mapData_look_of_none {ns : String} {key : Option String}
    (h : s.data.values.find ns key = none) : s.mapData (·.look s.now ns key) = s := by
  simp [mapData, StoreData.look, h]

theorem read_cases {ns key : String} {r : Except StoreError (Option Json)}
    (h : Store.read env actor ns key s = (r, t)) :
    (¬actor.May s.permissions (StorePath.mk ns key).resource .read ∧
      ∃ cause, r = .error (.permission cause) ∧ Noted env actor s t) ∨
      r = .ok (s.data.value? ns key) ∧
        Noted env actor (s.mapData (·.look s.now ns (some key))) t := by
  obtain hrefused | h := authorize_bind_cases h
  · exact .inl hrefused
  refine .inr ?_
  rw [get_bind] at h
  cases hv : s.data.value? ns key with
  | none =>
    simp only [hv, Option.isSome_none, Bool.false_eq_true, if_false] at h
    have hfind : s.data.values.find ns (some key) = none := hv
    rw [mapData_look_of_none hfind]
    exact logged h fun _ => rfl
  | some v =>
    simp only [hv, Option.isSome_some, if_true, modify_bind] at h
    have hfind : s.data.values.find ns (some key) = some v := hv
    rw [mapData_look_of_some hfind]
    exact logged h fun _ => rfl

theorem readSpace_ends {ns : String} {r : Except StoreError (Option (Table Json))}
    (h : Store.readSpace env actor ns s = (r, t)) :
    StoreCall.Ends env actor s (.readSpace ns) (r.map .values) t := by
  obtain ⟨e, rfl, hn⟩ | h := (authorize_gate _ _ _).bind_cases h
  · exact .failed hn
  rw [get_bind] at h
  cases hv : s.data.space? ns with
  | none =>
    have hfind : s.data.values.find ns none = none := by
      change (s.data.space? ns).map Json.obj = none
      rw [hv, Option.map_none]
    simp only [hv, Option.isSome_none, Bool.false_eq_true, if_false] at h
    obtain ⟨rfl, hn⟩ := logged h fun _ => rfl
    rw [← mapData_look_of_none hfind] at hn
    exact hv ▸ .readSpace hn
  | some values =>
    have hfind : s.data.values.find ns none = some (.obj values) := by
      change (s.data.space? ns).map Json.obj = _
      rw [hv, Option.map_some]
    simp only [hv, Option.isSome_some, if_true, modify_bind] at h
    obtain ⟨rfl, hn⟩ := logged h fun _ => rfl
    rw [← mapData_look_of_some hfind] at hn
    exact hv ▸ .readSpace hn

theorem delete_cases {ns : String} {key : Option String} {r : Except StoreError Bool}
    (h : Store.delete env actor ns key s = (r, t)) :
    (∃ cause, r = .error (.permission cause) ∧ Noted env actor s t) ∨
      ∃ u found, Noted env actor (s.mapData (·.remove ns key)) u ∧
        dropObjects env (referencesIn key (s.data.values.find ns key)) u = (found, t) ∧
        r = found.map fun _ => (s.data.values.find ns key).isSome := by
  obtain ⟨-, hrefused⟩ | h := authorize_bind_cases h
  · exact .inl hrefused
  refine .inr ?_
  simp only [get_bind, modify_bind, lift_bind] at h
  obtain ⟨e, hd, rfl⟩ | ⟨⟨⟩, u, hd, h⟩ := bind_cases h
  · refine ⟨_, _, log_noted ?_ _ _ _ _, hd, rfl⟩
    exact fun _ => rfl
  · cases h
    refine ⟨_, _, log_noted ?_ _ _ _ _, hd, rfl⟩
    exact fun _ => rfl

theorem delete_ends {ns : String} {key : Option String} {r : Except StoreError Bool}
    (h : Store.delete env actor ns key s = (r, t)) :
    StoreCall.Ends env actor s (.delete ns key) (r.map .flag) t := by
  obtain ⟨cause, rfl, hn⟩ | ⟨u, found, hn, hd, rfl⟩ := delete_cases h
  · exact .failed hn
  · cases found with
    | ok => exact .delete hn hd
    | error e => exact .undeleted hn hd

theorem contains_ends {ns key : String} {r : Except StoreError Bool}
    (h : Store.contains env actor ns key s = (r, t)) :
    StoreCall.Ends env actor s (.contains ns key) (r.map .flag) t := by
  obtain ⟨e, rfl, hn⟩ | h := (authorize_gate _ _ _).bind_cases h
  · exact .failed hn
  rw [get_bind] at h
  obtain ⟨rfl, hn⟩ := logged h fun _ => rfl
  exact .contains hn

theorem keys_ends {ns : String} {r : Except StoreError (List String)}
    (h : Store.keys env actor ns s = (r, t)) :
    StoreCall.Ends env actor s (.keys ns) (r.map .names) t := by
  obtain ⟨e, rfl, hn⟩ | h := (authorize_gate _ _ _).bind_cases h
  · exact .failed hn
  cases h
  exact .keys

theorem append_ends {ns key : String} {v : Json} {r : Except StoreError Nat}
    (h : Store.append env actor ns key v s = (r, t)) :
    StoreCall.Ends env actor s (.append ns key v) (r.map .number) t := by
  obtain ⟨e, rfl, hn⟩ | h := (authorize_gate _ _ _).bind_cases h
  · exact .failed hn
  rw [get_bind] at h
  obtain ⟨e, ha, rfl⟩ | ⟨items, u, ha, h⟩ := bind_cases h
  · obtain ⟨u, hu, hn, -⟩ := audited_cases ha
    obtain ⟨-, rfl⟩ := Prod.mk.inj hu
    exact .failed hn
  · obtain ⟨w, hw, -, hok⟩ := audited_cases ha
    obtain rfl := hok _ rfl
    obtain ⟨hitems, rfl⟩ := Prod.mk.inj hw
    rw [modify_bind] at h
    obtain ⟨rfl, hn⟩ := logged h fun _ => rfl
    exact .append hitems hn

theorem merge_ends {ns : String} {values : Table Json} {strategy : MergeStrategy}
    {r : Except StoreError (Table Json)}
    (h : Store.merge env actor ns values strategy s = (r, t)) :
    StoreCall.Ends env actor s (.merge ns values strategy) (r.map .conflicts) t := by
  obtain ⟨e, rfl, hn⟩ | h := (authorizeAll_gate _ _ _).bind_cases h
  · exact .failed hn
  rw [get_bind, modify_bind, lift_bind] at h
  obtain ⟨rfl, hn⟩ := logged h fun _ => rfl
  exact .merge hn

theorem snapshot_ends {ns : String} {r : Except StoreError Nat}
    (h : Store.snapshot env actor ns s = (r, t)) :
    StoreCall.Ends env actor s (.snapshot ns) (r.map .number) t := by
  obtain ⟨e, rfl, hn⟩ | h := (authorize_gate _ _ _).bind_cases h
  · exact .failed hn
  simp only [modify_bind, get_bind, List.length_append, List.length_singleton] at h
  obtain ⟨rfl, hn⟩ := logged h fun _ => rfl
  exact .snapshot hn

theorem restore_ends {id : Nat} {r : Except StoreError Bool}
    (h : Store.restore env actor id s = (r, t)) :
    StoreCall.Ends env actor s (.restore id) (r.map .flag) t := by
  rw [restore, get_bind] at h
  cases hsnap : s.snapshot? id with
  | none =>
    simp only [hsnap] at h
    obtain ⟨rfl, hn⟩ := logged h fun _ => rfl
    exact .unknown hsnap hn
  | some snap =>
    simp only [hsnap] at h
    obtain ⟨e, rfl, hn⟩ | h := (authorize_gate _ _ _).bind_cases h
    · exact .failed hn
    rw [get_bind, modify_bind] at h
    obtain ⟨rfl, hn⟩ := logged h fun _ => rfl
    exact .restore hsnap hn

theorem savePayload_ends {ns key : String} {source : Source} {metadata : BinaryMetadata}
    {r : Except StoreError Descriptor}
    (h : Store.savePayload env actor ns key source metadata s = (r, t)) :
    StoreCall.Ends env actor s (.savePayload ns key source metadata) (r.map .descriptor) t := by
  obtain ⟨e, rfl, hn⟩ | h := (authorize_gate _ _ _).bind_cases h
  · exact .failed hn
  obtain ⟨e, ha, rfl⟩ | ⟨w, u, ha, h⟩ := bind_cases h
  · obtain ⟨u, hu, hn, -⟩ := audited_cases ha
    exact .unwritten hu hn
  · obtain ⟨u, hu, -, hok⟩ := audited_cases ha
    obtain rfl := hok _ rfl
    obtain ⟨descriptor, size⟩ := w
    dsimp only at h
    rw [get_bind, modify_bind, lift_bind] at h
    obtain ⟨rfl, hn⟩ := logged h fun _ => rfl
    exact .savePayload hu hn

theorem tryOutside_apply {ε : Type} (f : ε → StoreError) (a : Attempt σ ε α) (s : Store σ) :
    tryOutside f a s =
      ((a s.outside).1.mapError f, { s with outside := (a s.outside).2 }) := rfl

theorem onOutside_apply (a : StateM σ α) (s : Store σ) :
    onOutside a s = (.ok (a s.outside).1, { s with outside := (a s.outside).2 }) := rfl

theorem onOutside_bind {β : Type} (a : StateM σ α) (f : α → StoreAction σ β) (s : Store σ) :
    (onOutside a >>= f) s =
      f (a s.outside).1 { s with outside := (a s.outside).2 } := rfl

theorem objects_cases {r : Except StoreError (ObjectStore σ)} (h : objects env s = (r, t)) :
    t = s ∧ ∀ o, r = .ok o → o ∈ env.objects := by
  unfold objects at h
  cases ho : env.objects with
  | some o =>
    rw [ho] at h
    cases h
    exact ⟨rfl, fun _ hr => congrArg some (Except.ok.inj hr)⟩
  | none =>
    rw [ho] at h
    cases h
    exact ⟨rfl, fun _ hr => nomatch hr⟩

theorem load_state (o : ObjectStore σ) (ns key : String) (x : σ) :
    (o.load ns key x).2 = (o.openSource ns key x).2 := by
  rw [ObjectStore.load, bind_apply]
  rcases o.openSource ns key x with ⟨_ | _, _⟩ <;> rfl

/-- What a value holds of a payload, or what comes of looking at the object that it refers to. -/
def fetch (env : Environment σ) (path : StorePath) (found : Option Json) (held : Bytes → α)
    (referred : ObjectStore σ → StorePath → Attempt σ ObjectError α) (x : σ) :
    Except StoreError α × σ :=
  match descriptorOf path found with
  | .error e => (.error e, x)
  | .ok d =>
    match d.location, d.reference, env.objects with
    | .referenced, some place, some o =>
      ((referred o place x).1.mapError .object, (referred o place x).2)
    | .referenced, some _, none => (.error (.unavailable .objects), x)
    | _, _, _ => ((inlineBytes d).map held, x)

theorem fetch_state (env : Environment σ) (path : StorePath) (found : Option Json)
    (held : Bytes → α) (referred : ObjectStore σ → StorePath → Attempt σ ObjectError α) (x : σ) :
    (fetch env path found held referred x).2 = x ∨ ∃ o ∈ env.objects, ∃ place,
      (fetch env path found held referred x).2 = (referred o place x).2 := by
  unfold fetch
  split
  · exact .inl rfl
  · split
    · rename_i o _ _ ho
      exact .inr ⟨o, ho, _, rfl⟩
    · exact .inl rfl
    · exact .inl rfl

theorem readPayload_eq (env : Environment σ) (actor : Actor) (operation ns key : String)
    (held : Bytes → α) (referred : ObjectStore σ → StorePath → Attempt σ ObjectError α) :
    readPayload env actor operation ns key held referred =
      audited env actor operation "binary" (StorePath.mk ns key).resource
        (read env actor ns key >>= fun found u =>
          let fetched := fetch env ⟨ns, key⟩ found held referred u.outside
          (fetched.1, { u with outside := fetched.2 })) := by
  unfold readPayload
  congr 2
  funext found u
  rw [bind_apply, Attempt.look, fetch]
  cases descriptorOf ⟨ns, key⟩ found with
  | error e => rfl
  | ok d =>
    cases hl : d.location with
    | inline => simp only [hl]; rfl
    | referenced =>
      cases hp : d.reference with
      | none => simp only [hl, hp]; rfl
      | some place =>
        unfold objects
        cases ho : env.objects with
        | none => simp only [hl, hp]; rfl
        | some o => simp only [hl, hp]; rfl

/-- Reading a payload is refused to those who may not do so; otherwise it is looking at the value
of the key, and then fetching what that value holds or refers to. -/
theorem readPayload_cases {operation ns key : String} {held : Bytes → α}
    {referred : ObjectStore σ → StorePath → Attempt σ ObjectError α} {r : Except StoreError α}
    (h : readPayload env actor operation ns key held referred s = (r, t)) :
    (¬actor.May s.permissions (StorePath.mk ns key).resource .read ∧
      ∃ cause, r = .error (.permission cause) ∧ Noted env actor s t) ∨
      ∃ u x, Noted env actor (s.mapData (·.look s.now ns (some key))) u ∧
        fetch env ⟨ns, key⟩ (s.data.value? ns key) held referred u.outside = (r, x) ∧
        Noted env actor { u with outside := x } t := by
  rw [readPayload_eq] at h
  obtain ⟨v, hv, hn, -⟩ := audited_cases h
  obtain ⟨e, hread, he⟩ | ⟨found, u, hread, hfetch⟩ := bind_cases hv
  · obtain ⟨hno, cause, hr, hn'⟩ | ⟨hr, -⟩ := read_cases hread
    · cases hr
      exact .inl ⟨hno, cause, he, hn'.trans hn⟩
    · cases hr
  · obtain ⟨-, e, hr, -⟩ | ⟨hr, hu⟩ := read_cases hread
    · cases hr
    · cases hr
      cases hfetch
      exact .inr ⟨u, _, hu, rfl, hn⟩

theorem backend_bind_cases {operation resource : String} {f : Backend σ → StoreAction σ α}
    {r : Except StoreError α} (h : (backend env actor operation resource >>= f) s = (r, t)) :
    (∃ e, r = .error e ∧ Noted env actor s t) ∨ ∃ b ∈ env.backend, f b s = (r, t) := by
  unfold backend at h
  cases hb : env.backend with
  | some b =>
    simp only [hb, pure_bind] at h
    exact .inr ⟨b, rfl, h⟩
  | none =>
    simp only [hb] at h
    obtain ⟨e, ha, rfl⟩ | ⟨b, u, ha, -⟩ := bind_cases h
    · obtain ⟨u, hu, hn, -⟩ := audited_cases ha
      obtain ⟨-, rfl⟩ := Prod.mk.inj hu
      exact .inl ⟨e, rfl, hn⟩
    · obtain ⟨u, hu, -⟩ := audited_cases ha
      cases hu

theorem storedSpaces_bind_cases {b : Backend σ} {ns : Option String}
    {f : List String → StoreAction σ α} {r : Except StoreError α}
    (h : (storedSpaces b ns >>= f) s = (r, t)) :
    ∃ names u, storedSpaces b ns s = (.ok names, u) ∧ f names u = (r, t) := by
  cases ns with
  | some ns => exact ⟨[], s, rfl, h⟩
  | none => exact ⟨_, _, rfl, h⟩

theorem loadAll_total (b : Backend σ) (spaces : List String) (s : Store σ) :
    ∃ n t, loadAll b spaces s = (.ok n, t) := by
  induction spaces generalizing s with
  | nil => exact ⟨0, s, rfl⟩
  | cons ns spaces ih =>
    rw [loadAll, onOutside_bind]
    cases (b.loadSpace ns s.outside).1 with
    | none => exact ih _
    | some values =>
      dsimp only
      rw [modify_bind, bind_apply]
      obtain ⟨n, t, h⟩ := ih (mapData (·.extend s.now ns values)
        { s with outside := (b.loadSpace ns s.outside).2 })
      rw [h]
      exact ⟨n + 1, t, rfl⟩

theorem save_ends {ns : Option String} {r : Except StoreError Bool}
    (h : Store.save env actor ns s = (r, t)) :
    StoreCall.Ends env actor s (.save ns) (r.map .flag) t := by
  obtain ⟨e, rfl, hn⟩ | ⟨b, hb, hlist⟩ := backend_bind_cases h
  · exact .failed hn
  obtain ⟨names, u, hl, hask⟩ := storedSpaces_bind_cases hlist
  rw [get_bind] at hask
  obtain ⟨e, rfl, hn⟩ | hsync := (authorizeAll_gate _ _ _).bind_cases hask
  · exact .unlisted (.inl rfl) hb hl hn
  · rw [onOutside_bind] at hsync
    obtain ⟨rfl, hn⟩ := logged hsync fun _ => rfl
    exact .save hb hl (onOutside_apply _ _) hn

theorem load_ends {ns : Option String} {r : Except StoreError Bool}
    (h : Store.load env actor ns s = (r, t)) :
    StoreCall.Ends env actor s (.load ns) (r.map .flag) t := by
  obtain ⟨e, rfl, hn⟩ | ⟨b, hb, hlist⟩ := backend_bind_cases h
  · exact .failed hn
  obtain ⟨names, u, hl, hask⟩ := storedSpaces_bind_cases hlist
  obtain ⟨e, rfl, hn⟩ | hload := (authorizeAll_gate _ _ _).bind_cases hask
  · exact .unlisted (.inr rfl) hb hl hn
  · obtain ⟨n, v, hv⟩ := loadAll_total b (ns.elim names fun ns => [ns]) u
    rw [bind_apply, hv] at hload
    obtain ⟨rfl, hn⟩ := logged hload fun _ => rfl
    exact .load hb hl hv hn

theorem deleteStored_ends {ns : String} {key : Option String} {r : Except StoreError Bool}
    (h : Store.deleteStored env actor ns key s = (r, t)) :
    StoreCall.Ends env actor s (.deleteStored ns key) (r.map .flag) t := by
  obtain ⟨e, rfl, hn⟩ | ⟨b, hb, hask⟩ := backend_bind_cases h
  · exact .failed hn
  obtain ⟨e, rfl, hn⟩ | hdelete := (authorize_gate _ _ _).bind_cases hask
  · exact .failed hn
  · rw [onOutside_bind] at hdelete
    obtain ⟨rfl, hn⟩ := logged hdelete fun _ => rfl
    exact .deleteStored hb (onOutside_apply _ _) hn

end Store

/-- What a call answers is made of the result of its operation. -/
theorem StoreCall.answer_cases {a : StoreAction σ α} {f : α → StoreAnswer} {s t : Store σ}
    {r : Except StoreError StoreAnswer} (h : (a >>= fun v => pure (f v)) s = (r, t)) :
    ∃ found, a s = (found, t) ∧ r = found.map f := by
  obtain ⟨e, ha, rfl⟩ | ⟨v, u, ha, h⟩ := bind_cases h
  · exact ⟨_, ha, rfl⟩
  · cases h
    exact ⟨_, ha, rfl⟩

theorem StoreCall.answer_eq (a : StoreAction σ α) (f : α → StoreAnswer) (s : Store σ) :
    ((a >>= fun v => pure (f v)) s).1 = (a s).1.map f := by
  rcases h : (a >>= fun v => pure (f v)) s with ⟨r, t⟩
  obtain ⟨found, ha, rfl⟩ := answer_cases h
  rw [ha]

open Store in
/-- Reading a payload is refused, or it is looking at a value and then perhaps at an object. -/
theorem StoreCall.payload_cases {env : Environment σ} {actor : Actor} {call : StoreCall}
    {ns key : String} {s t : Store σ} {r : Except StoreError StoreAnswer}
    (hcall : call = .loadPayload ns key ∨ call = .openPayload ns key)
    (h : call.perform env actor s = (r, t)) :
    (∃ cause, r = .error (.permission cause) ∧ Noted env actor s t) ∨
      ∃ u x, Noted env actor (s.mapData (·.look s.now ns (some key))) u ∧
        (x = u.outside ∨ ∃ o ∈ env.objects, ∃ path : StorePath,
          x = (o.openSource path.ns path.key u.outside).2) ∧
        Noted env actor { u with outside := x } t := by
  rcases hcall with rfl | rfl
  · obtain ⟨found, hf, rfl⟩ := answer_cases h
    obtain ⟨-, cause, rfl, hn⟩ | ⟨u, x, hu, hx, hn⟩ := readPayload_cases hf
    · exact .inl ⟨cause, rfl, hn⟩
    · refine .inr ⟨u, x, hu, ?_, hn⟩
      rw [← show _ = x from congrArg Prod.snd hx]
      apply (fetch_state _ _ _ _ _ _).imp_right
      rintro ⟨o, ho, path, hpath⟩
      exact ⟨o, ho, path, hpath.trans (load_state o path.ns path.key u.outside)⟩
  · obtain ⟨found, hf, rfl⟩ := answer_cases h
    obtain ⟨-, cause, rfl, hn⟩ | ⟨u, x, hu, hx, hn⟩ := readPayload_cases hf
    · exact .inl ⟨cause, rfl, hn⟩
    · refine .inr ⟨u, x, hu, ?_, hn⟩
      rw [← show _ = x from congrArg Prod.snd hx]
      exact fetch_state _ _ _ _ _ _

open Store in
/-- Every call ends by one of the rules. -/
theorem StoreCall.perform_ends {env : Environment σ} {actor : Actor} {call : StoreCall}
    {s t : Store σ} {r : Except StoreError StoreAnswer}
    (h : call.perform env actor s = (r, t)) : call.Ends env actor s r t := by
  cases call with
  | set ns key v opts =>
    obtain ⟨found, hf, rfl⟩ := answer_cases h
    exact set_ends hf
  | read ns key =>
    obtain ⟨found, hf, rfl⟩ := answer_cases h
    obtain ⟨-, e, rfl, hn⟩ | ⟨rfl, hn⟩ := read_cases hf
    · exact .failed hn
    · exact .read hn
  | readSpace ns =>
    obtain ⟨found, hf, rfl⟩ := answer_cases h
    exact readSpace_ends hf
  | delete ns key =>
    obtain ⟨found, hf, rfl⟩ := answer_cases h
    exact delete_ends hf
  | contains ns key =>
    obtain ⟨found, hf, rfl⟩ := answer_cases h
    exact contains_ends hf
  | keys ns =>
    obtain ⟨found, hf, rfl⟩ := answer_cases h
    exact keys_ends hf
  | append ns key v =>
    obtain ⟨found, hf, rfl⟩ := answer_cases h
    exact append_ends hf
  | merge ns values strategy =>
    obtain ⟨found, hf, rfl⟩ := answer_cases h
    exact merge_ends hf
  | snapshot ns =>
    obtain ⟨found, hf, rfl⟩ := answer_cases h
    exact snapshot_ends hf
  | restore id =>
    obtain ⟨found, hf, rfl⟩ := answer_cases h
    exact restore_ends hf
  | savePayload ns key source metadata =>
    obtain ⟨found, hf, rfl⟩ := answer_cases h
    exact savePayload_ends hf
  | loadPayload ns key =>
    obtain ⟨cause, rfl, hn⟩ | ⟨u, x, hu, hx, hn⟩ := payload_cases (.inl rfl) h
    · exact .failed hn
    · exact .payload (.inl rfl) hu hx hn
  | openPayload ns key =>
    obtain ⟨cause, rfl, hn⟩ | ⟨u, x, hu, hx, hn⟩ := payload_cases (.inr rfl) h
    · exact .failed hn
    · exact .payload (.inr rfl) hu hx hn
  | save ns =>
    obtain ⟨found, hf, rfl⟩ := answer_cases h
    exact save_ends hf
  | load ns =>
    obtain ⟨found, hf, rfl⟩ := answer_cases h
    exact load_ends hf
  | deleteStored ns key =>
    obtain ⟨found, hf, rfl⟩ := answer_cases h
    exact deleteStored_ends hf

end Workflow
