import SheetMill.Proofs.JsonReading
import SheetMill.Proofs.Octets
import SheetMill.Proofs.Exchange
import SheetMill.Proofs.SchemaWork

/-!
# From the publisher of requests about schemas to the worker

The worker can read what a publisher puts on the exchange. It looks for the kind of a request under
a name under which the publisher does not write it, so it takes every request for one to store a
schema.
-/

namespace SheetMill.Checking.SchemaWorker

open Act Broker List

variable {P : List Event → Prop}

theorem messageOf_written {text : String} {founds : List (String × Value)}
    (h : Value.ofJson text = .ok (.record founds)) :
    messageOf (Wire.textOctets text) = .ok (.record founds) := by
  unfold messageOf
  rw [Wire.octetsText?_textOctets]
  dsimp only
  rw [h]
  rfl

/-- The worker can read a request. -/
theorem messageOf_request {r : SchemaRequest} {id date written : String} {content : Value}
    (hcont : r.body id date = .ok content) (hwritten : content.toJson = .ok written) :
    ∃ msg, messageOf (Wire.textOctets written) = .ok msg ∧
      msg.field? "id" = some (.text id) ∧ msg.field? "date" = some (.text date) ∧
      msg.getD "task" (.text "upload_schema") = .ok (.text "upload_schema") := by
  cases hcont
  obtain ⟨founds, hread, hnames, htexts⟩ := Value.ofJson_record (by simp) hwritten
  simp only [map_cons, map_nil] at hnames
  have hdist : (founds.map Prod.fst).Nodup := by
    rw [hnames]
    decide
  have habsent : (Value.record founds).field? "task" = none := by
    rw [Value.field?_record, Value.lookup_of_not_mem]
    rw [hnames]
    decide
  refine ⟨.record founds, messageOf_written hread, ?_, ?_, ?_⟩
  · exact Value.field?_record_of_mem hdist (htexts "id" id (by simp))
  · exact Value.field?_record_of_mem hdist (htexts "date" date (by simp))
  · change Except.ok (((Value.record founds).field? "task").getD _) = _
    rw [habsent]
    rfl

variable {σ : Type} {world : Surroundings σ}

def Begun (es : List Event) : Prop := (told es).head? = some "received-schema-update"

theorem ensures_saveSchema (hP : Lasting P) (schema importName : Value) :
    Sustains (Saw P) (saveSchema world.watched.database world.watched.now schema importName) := by
  refine .read fun stored => ?_
  exact ensures_now.bind fun text _ => hP.ensures_watch _ _

theorem ensures_update [Journaled σ] (hP : Lasting P) (msg : Value) :
    Sustains (Saw P) (update world.watched msg) := by
  refine .read fun taskId => ?_
  refine .read fun importName => ?_
  refine .read fun raw => ?_
  refine (hP.ensures_say _ _ _ _).bind fun _ _ => ?_
  refine .bind (Q := fun _ => True) (Ensures.attempt (Q := fun _ => True) ?_)
    fun created _ => ?_
  · refine .read fun given => .read fun schema => ?_
    exact (hP.ensures_say _ _ _ _).bind fun _ _ => ensures_pure trivial
  split
  · refine (ensures_note _ _ _).bind fun _ _ => ?_
    exact (hP.ensures_say _ _ _ _).bind fun _ _ => ensures_pure trivial
  · exact ensures_throw _
  · refine (hP.ensures_say _ _ _ _).bind fun _ _ => ?_
    refine .bind (Q := fun _ => True) ?_ fun r _ => ?_
    · refine .handle ?_ fun f => ensures_pure trivial
      refine .bind (Q := fun _ => True) ?_ fun v _ => ensures_pure trivial
      exact .read fun copy => ensures_saveSchema hP copy importName
    · refine ensures_updated.bind fun updated _ => ?_
      exact (hP.ensures_setStatus post _).bind fun _ _ => ensures_pure trivial

theorem yields_received (htimed : world.Timed) {msg date : Value}
    (hdate : msg.field? "date" = some date) (taskId : Value) :
    Yields (Saw (· = [])) (world.watched.setReceived post msg taskId "received-schema-update")
      (fun _ => Saw Begun) (fun _ => Saw Begun) := by
  refine .known (Value.item_eq_ok.mpr hdate) ?_
  refine (yields_updated htimed).bind fun updated => yields_change rfl fun req htold => ?_
  have hbegun : ∀ fault es, es = [] → Begun (es ++ [⟨.ask .updateTask req, fault⟩]) := by
    rintro fault _ rfl
    unfold Begun
    rw [told_append, htold]
    rfl
  exact yields_watch (hbegun none) fun f => hbegun (some f)

def connectedPost : Broker.Post :=
  ⟨{ params := ({} : Settings).paramsValue, connections := [true], channels := [⟨0, true⟩] }, 0⟩

def plainPublisher : Publisher :=
  { exchange := ({} : Settings).exchangeValue, source := "publisher" }

end SheetMill.Checking.SchemaWorker
