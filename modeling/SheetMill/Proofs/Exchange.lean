import SheetMill.Broker.Publisher
import SheetMill.Proofs.BrokerCalls
import SheetMill.Proofs.Retrying

/-!
# What a publisher puts on the exchange

Whatever a publisher does, the bodies that it publishes are the texts of the request that it was
given. All other calls of the broker are about connections and channels.
-/

namespace SheetMill.Broker

open Act List

def bodies (calls : List (String × Value)) : List String :=
  calls.filterMap fun call =>
    if call.1 = "basic_publish" then
      match call.2.field? "body" with
      | some (.text body) => some body
      | _ => none
    else none

/-- Since the calls so far, only bodies with a property were put on an exchange. -/
def Issued (P : String → Prop) (calls : List (String × Value)) (s : State) : Prop :=
  ∃ new, s.calls = calls ++ new ∧ ∀ body ∈ bodies new, P body

variable {P : String → Prop} {calls : List (String × Value)} {s s' : State}

theorem Issued.append (h : Issued P calls s) {new : List (String × Value)}
    (heq : s'.calls = s.calls ++ new) (hnew : ∀ body ∈ bodies new, P body) : Issued P calls s' := by
  obtain ⟨before, hbefore, hbodies⟩ := h
  refine ⟨before ++ new, by rw [heq, hbefore, append_assoc], fun body hbody => ?_⟩
  unfold bodies at hbody
  rw [filterMap_append, mem_append] at hbody
  rcases hbody with hbody | hbody
  · exact hbodies body hbody
  · exact hnew body hbody

theorem Issued.of_calls_eq (h : Issued P calls s) (heq : s'.calls = s.calls) : Issued P calls s' :=
  h.append (heq.trans (append_nil _).symm) nofun

theorem Issued.reaches (h : Issued P calls s) (hs : s.Reaches s') : Issued P calls s' := by
  obtain ⟨⟨new, hnew, hcalls⟩, -⟩ := hs
  refine h.append hnew.calls fun body hbody => ?_
  obtain ⟨call, hcall, hsome⟩ := mem_filterMap.mp hbody
  rw [if_neg (hcalls call hcall)] at hsome
  cases hsome

theorem ensures_call {name : String} {arguments : List (String × Value)} (channel : Option Nat)
    (h : ∀ body ∈ bodies [(name, .record arguments)], P body) :
    Sustains (Issued P calls) (call name arguments channel) := by
  refine .of_run fun s hs => ?_
  rcases (ends_call s name arguments channel).cases with ⟨a, s', hrun, h'⟩ | ⟨f, s', hrun, h'⟩
  · exact .inl ⟨a, s', hrun, trivial, hs.append h'.1.1.calls h⟩
  · exact .inr ⟨f, s', hrun, hs.append h'.1.1.calls h⟩

theorem Connects.sustains {σ α : Type} {view : σ → State} {work : Act σ α} {R : State → Prop}
    (hwork : Connects view work) (hR : ∀ s s', R s → s.Reaches s' → R s') :
    Sustains (fun t => R (view t)) work := by
  refine .of_run fun t ht => ?_
  rcases (hwork (view t) t (.refl _)).cases with ⟨a, t', hrun, h⟩ | ⟨f, t', hrun, h⟩
  · exact .inl ⟨a, t', hrun, trivial, hR _ _ ht h⟩
  · exact .inr ⟨f, t', hrun, hR _ _ ht h.1⟩

/-- The publisher's channel may be another one afterwards, and that is all. -/
theorem connects_renew (publisher : Publisher) (force : Bool) :
    Connects Post.broker (publisher.renew force) := by
  refine .get fun t => ?_
  split
  · exact .bind (.within (connects_threadChannel _) fun _ _ => rfl) fun _ =>
      connects_modify fun _ => ⟨rfl, rfl, rfl⟩
  · exact connects_pure _

theorem ensures_newIdentifier : Sustains (Issued P calls) newIdentifier := by
  refine (ensures_modify fun s hs => ?_).bind fun _ _ => ?_
  · exact hs.of_calls_eq rfl
  · exact ensures_get.bind fun s _ => ensures_pure trivial

def Posted (P : String → Prop) (calls : List (String × Value)) (s : Post) : Prop :=
  Issued P calls s.broker

theorem ensures_onBroker {α : Type} {work : Work α}
    (h : Sustains (Issued P calls) work) :
    Sustains (Posted P calls) (onBroker work) :=
  h.within fun _ _ => rfl

namespace Publisher

/-- Whatever is put on the exchange is the JSON of the body with some identifier and date. -/
theorem ensures_send (publisher : Publisher) (routingKey : Value)
    (body : String → String → Outcome Value)
    (hP : ∀ id date content written, body id date = .ok content → content.toJson = .ok written →
      P written) :
    Sustains (Posted P calls) (publisher.send routingKey body) := by
  refine (ensures_onBroker ensures_newIdentifier).bind fun id _ => ?_
  refine ensures_get.bind fun s _ => ?_
  refine .given fun content hcont => ?_
  refine .read fun exchange => ?_
  refine .given fun written hwritten => ?_
  refine ensures_get.bind fun s _ => ?_
  refine (ensures_onBroker (ensures_call _ fun found hfound => ?_)).bind fun _ _ =>
    ensures_pure trivial
  cases mem_singleton.mp hfound
  exact hP id _ content written hcont hwritten

theorem ensures_publish (publisher : Publisher) (op : String) (routingKey : Value)
    (body : String → String → Outcome Value)
    (hP : ∀ id date content written, body id date = .ok content → content.toJson = .ok written →
      P written) :
    Sustains (Posted P calls) (publisher.publish op routingKey body) := by
  refine .read fun count => Retry.ensures_attemptFrom ?_ ?_ ?_ _ _ _
  · intro n
    exact ((connects_renew publisher _).sustains fun _ _ => Issued.reaches).bind fun _ _ =>
      publisher.ensures_send routingKey body hP
  · intro n delay f
    exact (ensures_modify fun s hs => hs).bind fun _ _ =>
      ensures_onBroker (ensures_modify fun s hs => hs)
  · intro f
    exact ensures_modify fun s hs => hs

end Publisher

end SheetMill.Broker
