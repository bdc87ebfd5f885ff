import SheetMill.Proofs.SchemaRequests

/-!
# From the publisher of requests to check files to the worker

The worker can read what a publisher puts on the exchange, with the file that it carries.
-/

namespace SheetMill.Checking.ValidationWorker

open Act Broker Text Value

variable {octets : List UInt8} {msg : Value} {r : ValidationRequest}

/-! ## The file -/

theorem isWhitespace_hexDigit {d : Nat} (h : d < 16) :
    ((hexDigit d).isWhitespace || (hexDigit d).toNat = 11 || (hexDigit d).toNat = 12) = false := by
  have hall : ∀ d < 16, ((hexDigit d).isWhitespace || (hexDigit d).toNat = 11 ||
      (hexDigit d).toNat = 12) = false := by decide
  exact hall d h

theorem octetsOfHex?_cons {high low : Nat} (hhigh : high < 16) (hlow : low < 16) (cs : List Char) :
    octetsOfHex? (hexDigit high :: hexDigit low :: cs) =
      (octetsOfHex? cs).map (UInt8.ofNat (16 * high + low) :: ·) := by
  rw [octetsOfHex?, isWhitespace_hexDigit hhigh, hexValue?_hexDigit hhigh,
    hexValue?_hexDigit hlow]
  cases octetsOfHex? cs <;> rfl

/-- A file that was written in hexadecimal digits is read back. -/
theorem octetsOfHex?_hexText (octets : List UInt8) :
    octetsOfHex? (hexText octets).toList = some octets := by
  unfold hexText
  rw [String.toList_ofList]
  induction octets with
  | nil => rfl
  | cons octet octets ih =>
    have hlt : octet.toNat < 256 := octet.toNat_lt
    have hdig : hexDigits octet.toNat 2 ++ octets.flatMap (fun o => hexDigits o.toNat 2) =
        hexDigit (octet.toNat / 16) :: hexDigit (octet.toNat % 16) ::
          octets.flatMap fun o => hexDigits o.toNat 2 := by
      have hhigh : octet.toNat / 16 % 16 = octet.toNat / 16 := Nat.mod_eq_of_lt (by omega)
      simp [hexDigits, hhigh]
    have hoctet : UInt8.ofNat (16 * (octet.toNat / 16) + octet.toNat % 16) = octet := by
      rw [Nat.div_add_mod, UInt8.ofNat_toNat]
    rw [List.flatMap_cons, hdig, octetsOfHex?_cons (by omega) (by omega), ih, Option.map_some,
      hoctet]

/-! ## What the worker reads -/

structure Carries (r : ValidationRequest) (octets : List UInt8) (filename : String) : Prop where
  task : r.task = .text "sample_validation"
  file : r.fileData = .bytes octets
  metadata : ∃ fields, r.metadata = .record fields ∧ (fields.map Prod.fst).Nodup ∧
    ("filename", text filename) ∈ fields

/-- A message in which the worker finds all that it looks for. -/
structure Complete (message : Value) (octets : List UInt8) (filename : Value) : Prop where
  id : ∃ id, message.field? "id" = some id
  date : ∃ date, message.field? "date" = some date
  task : message.field? "task" = some (.text "sample_validation")
  file : ∃ data, message.field? "file_data" = some data ∧ fileOf data = .ok octets
  filename : ∃ metadata, message.field? "metadata" = some metadata ∧
    metadata.field? "filename" = some filename
  importName : ∃ importName, message.field? "import_name" = some importName

theorem messageOf_request {filename : String} (hr : Carries r octets filename)
    {id date written : String} {content : Value} (hcont : r.body id date = .ok content)
    (hwritten : content.toJson = .ok written) :
    ∃ msg, messageOf (Wire.textOctets written) = .ok msg ∧
      Complete msg octets (.text filename) := by
  obtain ⟨fs, hmeta, hflds, hfilename⟩ := hr.metadata
  unfold ValidationRequest.body at hcont
  rw [hr.file, hr.task, hmeta] at hcont
  cases hcont
  obtain ⟨founds, hread, hnames, hfounds⟩ := ofJson_fields (by simp) hwritten
  simp only [List.map_cons, List.map_nil] at hnames
  have hdist : (founds.map Prod.fst).Nodup := by
    rw [hnames]
    decide
  have hfld : ∀ name v, (name, v) ∈ founds → (Value.record founds).field? name = some v :=
    fun name v hmem => field?_record_of_mem hdist hmem
  have htext : ∀ name s, Value.FieldFound 1 founds name (.text s) →
      (Value.record founds).field? name = some (.text s) :=
    fun name s h => hfld name _ h.text
  refine ⟨.record founds, SchemaWorker.messageOf_written hread, ⟨.text id, ?_⟩, ⟨.text date, ?_⟩, ?_,
    ⟨.text (Value.hexText octets), ?_, ?_⟩, ?_, ?_⟩
  · exact htext "id" id (hfounds _ _ (by simp))
  · exact htext "date" date (hfounds _ _ (by simp))
  · exact htext "task" _ (hfounds _ _ (by simp))
  · exact htext "file_data" (Value.hexText octets) (hfounds _ _ (by simp))
  · unfold fileOf
    dsimp only
    rw [octetsOfHex?_hexText]
  · obtain ⟨inner, hmem, hinnerNames, hinner⟩ :=
      (hfounds "metadata" (.record fs) (by simp)).record hflds
    refine ⟨.record inner, hfld _ _ hmem, ?_⟩
    exact field?_record_of_mem (hinnerNames ▸ hflds) (hinner _ _ hfilename).text
  · obtain ⟨_, v, _, _, hmem⟩ := hfounds "import_name" r.importName (by simp)
    exact ⟨v, hfld _ _ hmem⟩

/-! ## What the worker does -/

variable {σ : Type}

/-- All that is asked of the surroundings succeeds. -/
structure Obliging (world : Surroundings σ) : Prop where
  timed : world.Timed
  database : ∀ call request s, ∃ answer s', world.database call request s = .ok answer s'
  publish : ∀ exchange key body s, ∃ s', world.publish exchange key body s = .ok () s'
  acknowledge : ∀ tag s, ∃ s', world.acknowledge tag s = .ok () s'
  reject : ∀ tag s, ∃ s', world.reject tag s = .ok () s'

/-- The states were recorded one after the other, and nothing else was done. -/
structure Stage (states : List String) (es : List Event) : Prop where
  recorded : recorded es = states
  answers : answers es = []
  publications : publications es = 0
  asked : Asked ["UpdateTaskId"] es

theorem stage_nil : Stage [] [] :=
  ⟨rfl, rfl, rfl, fun _ he => by cases he⟩

theorem Stage.snoc {states : List String} {es : List Event} (h : Stage states es) {req : Value}
    {status : String} (hstat : (Action.ask .updateTask req).status? = some status) :
    Stage (states ++ [status]) (es ++ [⟨.ask .updateTask req, none⟩]) := by
  refine ⟨?_, ?_, ?_, ?_⟩
  · have hrecorded : Event.recorded? ⟨.ask .updateTask req, none⟩ = some status := hstat
    rw [recorded_append, h.recorded, hrecorded]
    rfl
  · rw [answers_append, h.answers]
    rfl
  · rw [publications_append, h.publications]
    rfl
  · rw [asked_append]
    refine ⟨h.asked, ?_⟩
    simp [Message.Call.updateTask]

section Steps

variable {world : Surroundings σ} {states : List String}
  {E : Fault → Watched σ → Prop}

theorem yields_status (hworld : Obliging world) (change : StatusChange) {status : String}
    (hstat : change.status = .text status) :
    Yields (Saw (Stage states)) (world.watched.setStatus post change)
      (fun _ => Saw (Stage (states ++ [status]))) E := by
  refine yields_change hstat fun req htold => .of_run fun t ht => .inl ?_
  obtain ⟨answer, s', hrun⟩ := hworld.database .updateTask req t.state
  exact ⟨answer, _, watch_of_ok hrun, ht.snoc htold⟩

theorem yields_say (hworld : Obliging world) (taskId : Value) (status text : String) :
    Yields (Saw (Stage states)) (world.watched.say post taskId status text)
      (fun _ => Saw (Stage (states ++ [status]))) E :=
  (yields_updated hworld.timed).bind fun _ => yields_status hworld _ rfl

theorem yields_received (hworld : Obliging world) {date : Value}
    (hdate : msg.field? "date" = some date) (taskId : Value) (status : String) :
    Yields (Saw (Stage states)) (world.watched.setReceived post msg taskId status)
      (fun _ => Saw (Stage (states ++ [status]))) E := by
  refine .known (item_eq_ok.mpr hdate) ?_
  refine (yields_updated hworld.timed).bind fun updated => ?_
  exact yields_status hworld _ rfl

theorem yields_validate [Journaled σ] (hworld : Obliging world) {filename : Value}
    (hmsg : Complete msg octets filename) (validator : Validator)
    (reader : TableReader (Watched σ)) (now : Act (Watched σ) String) (limit : Int) :
    Yields (Saw (Stage states))
      (validate world.watched (checkUpload validator reader now limit) msg)
      (fun _ _ => False)
      (fun f t => f.isOrdinary = true ∧
        Saw (Stage (states ++ ["processing-file"] ++ ["validating-file"])) t) := by
  obtain ⟨id, hid⟩ := hmsg.id
  obtain ⟨data, hdata, hfile⟩ := hmsg.file
  obtain ⟨metadata, hmeta, hfilename⟩ := hmsg.filename
  obtain ⟨importName, himportName⟩ := hmsg.importName
  refine .known (item_eq_ok.mpr hid) ?_
  refine (yields_say hworld _ _ _).bind fun _ => ?_
  refine .known (item_eq_ok.mpr hdata) (.known hfile ?_)
  refine .known (item_eq_ok.mpr hmeta) (.known (item_eq_ok.mpr hfilename) ?_)
  refine (yields_say hworld _ _ _).bind fun _ => ?_
  refine .known (item_eq_ok.mpr himportName) ?_
  have hcheck : ∀ req, Yields (Saw (Stage (states ++ ["processing-file"] ++ ["validating-file"])))
      (checkUpload validator reader now limit req) (fun _ _ => False)
      (fun f t => f.isOrdinary = true ∧
        Saw (Stage (states ++ ["processing-file"] ++ ["validating-file"])) t) := by
    intro req t ht
    exact ⟨rfl, ht⟩
  refine (hcheck _).bind fun result => ?_
  exact fun _ h => h.elim

/-- The delivery is rejected after the worker has begun to check the file. -/
theorem yields_process [Journaled σ] (hworld : Obliging world) {body : List UInt8}
    (hbody : messageOf body = .ok msg) {filename : Value}
    (hmsg : Complete msg octets filename) (validator : Validator)
    (reader : TableReader (Watched σ)) (now : Act (Watched σ) String) (limit : Int) (tag : Nat) :
    Yields (Saw (Stage []))
      (process world.watched (checkUpload validator reader now limit) tag body)
      (fun _ t => ∃ before, Stage ["received-sample-validation", "processing-file",
        "validating-file"] before ∧ t.events = before ++ [⟨.reject tag, none⟩])
      (fun _ _ => False) := by
  have hwork : Yields (Saw (Stage []))
      (work world.watched (checkUpload validator reader now limit) body)
      (fun _ _ => False)
      (fun f t => f.isOrdinary = true ∧ Saw (Stage ["received-sample-validation", "processing-file",
        "validating-file"]) t) := by
    obtain ⟨id, hid⟩ := hmsg.id
    obtain ⟨date, hdate⟩ := hmsg.date
    have htask := getD_of_field? hmsg.task (.text "sample_validation")
    refine .known hbody (.known (item_eq_ok.mpr hid) (.known htask ?_))
    refine (yields_note _ _ _).bind fun _ => ?_
    refine (yields_received hworld hdate _ _).bind fun _ => ?_
    refine (yields_validate hworld hmsg validator reader now limit).bind fun result => ?_
    exact fun _ h => h.elim
  refine .handle (hwork.bind fun text => fun _ h => h.elim) ?_ fun f _ => ?_
  · intro f t hf ht
    rw [hf] at ht
    cases ht.1
  · refine .bind (Q := fun _ t => Saw (Stage ["received-sample-validation", "processing-file",
      "validating-file"]) t) (fun t ht => ht.2) fun _ => ?_
    refine .of_run fun t ht => .inl ?_
    obtain ⟨s', hrun⟩ := hworld.reject tag t.state
    exact ⟨(), _, watch_of_ok hrun, t.events, ht, rfl⟩

end Steps

/-- Whatever the surroundings are, as long as all that is asked of them succeeds: a delivery with the
body is rejected, nothing is published, and the database last hears that the file is being
checked. -/
def Abandons (body : List UInt8) : Prop :=
  ∀ (σ : Type) [Journaled σ] (world : Surroundings σ), Obliging world →
    ∀ (validator : Validator) (reader : TableReader (Watched σ)) (now : Act (Watched σ) String)
      (limit : Int) (tag : Nat) (start : σ),
      let run :=
        (process world.watched (checkUpload validator reader now limit) tag body).outcome ⟨start, []⟩
      run.1 = .ok () ∧
        recorded run.2.events =
          ["received-sample-validation", "processing-file", "validating-file"] ∧
        answers run.2.events = [(tag, false)] ∧ publications run.2.events = 0 ∧
        Asked ["UpdateTaskId"] run.2.events

theorem abandons_request {filename : String} (hr : Carries r octets filename)
    {id date written : String} {content : Value} (hcont : r.body id date = .ok content)
    (hwritten : content.toJson = .ok written) : Abandons (Wire.textOctets written) := by
  obtain ⟨msg, hbody, hmsg⟩ := messageOf_request hr hcont hwritten
  intro σ _ world hworld validator reader now limit tag start
  have hprocess := (yields_process hworld hbody hmsg validator reader now limit tag).ends
    (show Saw (Stage []) ⟨start, []⟩ from stage_nil)
  rcases hprocess.cases with ⟨_, t, hrun, before, hbefore, ht⟩ | hfail
  · rw [outcome_of_ok hrun]
    dsimp only
    rw [ht, recorded_append, answers_append, publications_append, asked_append, hbefore.recorded,
      hbefore.answers, hbefore.publications]
    refine ⟨rfl, rfl, rfl, rfl, hbefore.asked, ?_⟩
    rintro _ _ ⟨⟩
  · obtain ⟨f, t, hrun, hfalse⟩ := hfail
    exact hfalse.elim

/-- A file whose check is requested is not checked, although the worker reads the request and its
surroundings do all that they are asked for. -/
theorem files_never_checked (publisher : Publisher) (r : ValidationRequest) (octets : List UInt8)
    (filename : String) (hr : Carries r octets filename) (s : Broker.Post) :
    ∃ new, ((publisher.validation r).outcome s).2.broker.calls = s.broker.calls ++ new ∧
      ∀ body ∈ bodies new, Abandons (Wire.textOctets body) := by
  have hkeeps : Sustains (Posted (fun body => Abandons (Wire.textOctets body)) s.broker.calls)
      (publisher.validation r) :=
    publisher.ensures_publish "publish_validation_request" r.routingKey r.body
      fun id date content written hcontent hwritten => abandons_request hr hcontent hwritten
  exact hkeeps.state (s := s) ⟨[], by simp, by simp [bodies]⟩

def ordersRequest : ValidationRequest :=
  { routingKey := .text "validation.request", fileData := .bytes (Wire.textOctets "amount\n3\n")
    importName := .text "orders", metadata := .record [("filename", .text "orders.csv")]
    task := .text "sample_validation" }

def ordersText : String :=
  "\x7b\"id\": \"00000000-0000-4000-8000-000000000001\", \"task\": \"sample_validation\", " ++
    "\"file_data\": \"616d6f756e740a330a\", \"import_name\": \"orders\", " ++
    "\"metadata\": \x7b\"filename\": \"orders.csv\"\x7d, " ++
    "\"date\": \"1970-01-01T00:00:00\", \"extra\": \x7b\x7d\x7d"

/-- A database in which every import has an active schema. -/
def stocked : Surroundings Journal :=
  SchemaWorker.uniform (.ok (.record [("status", .text "found"), ("schema", .record [
    ("type", .text "object"), ("properties", .record [
      ("amount", .record [("type", .text "integer")])])])]))

theorem obliging_stocked : Obliging stocked where
  timed := SchemaWorker.timed_uniform _
  database _ _ _ := ⟨_, _, rfl⟩
  publish _ _ _ _ := ⟨_, rfl⟩
  acknowledge _ _ := ⟨_, rfl⟩
  reject _ _ := ⟨_, rfl⟩

/-- The request for a file with an active schema is published, read, and rejected. -/
theorem files_never_checked_orders :
    Carries ordersRequest (Wire.textOctets "amount\n3\n") "orders.csv" ∧
      bodies ((SchemaWorker.plainPublisher.validation ordersRequest).outcome
        SchemaWorker.connectedPost).2.broker.calls = [ordersText] ∧
      Obliging stocked ∧
      (∃ schema, activeSchema stocked.database (.text "orders") [] = .ok schema [] ∧
        schema.truthy = true) ∧
      Abandons (Wire.textOctets ordersText) := by
  have hcarries : Carries ordersRequest (Wire.textOctets "amount\n3\n") "orders.csv" :=
    ⟨rfl, rfl, _, rfl, by decide, List.mem_singleton_self _⟩
  have hbodies : bodies ((SchemaWorker.plainPublisher.validation ordersRequest).outcome
      SchemaWorker.connectedPost).2.broker.calls = [ordersText] := by decide +kernel
  obtain ⟨new, hcalls, hnew⟩ := files_never_checked SchemaWorker.plainPublisher ordersRequest _ _
    hcarries SchemaWorker.connectedPost
  have hbody : ordersText ∈ bodies new := by
    have hcalls' : SchemaWorker.connectedPost.broker.calls ++ new = new := rfl
    rw [← hcalls', ← hcalls, hbodies]
    exact List.mem_singleton_self _
  exact ⟨hcarries, hbodies, obliging_stocked, ⟨_, rfl, rfl⟩, hnew ordersText hbody⟩

end SheetMill.Checking.ValidationWorker
