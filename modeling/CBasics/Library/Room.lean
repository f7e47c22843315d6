import Mathlib.Data.Finset.Erase
import Mathlib.Data.Finset.Insert
import Mathlib.Data.List.Nodup

/-! The chat room that a broadcast server implements: clients join and leave,
and a post reaches each other member once. Histories of a room are lists of
actions; what a member is sent during its stay is what the others posted. -/

set_option autoImplicit false

namespace CBasics.Library

variable {Client Payload : Type}

namespace Room

/-- The sends of one broadcast address every member but the one it is about,
each once and with the same payload. -/
structure Fanout (members : Finset Client) (about : Client) (payload : Payload)
    (sends : List (Client × Payload)) : Prop where
  once : (sends.map Prod.fst).Nodup
  exact : ∀ client, client ∈ sends.map Prod.fst ↔ client ∈ members ∧ client ≠ about
  faithful : ∀ send ∈ sends, send.2 = payload

/-- What changes a room or speaks in it. A post carries the sends it caused. -/
inductive Action (Client Payload : Type) where
  | join (client : Client)
  | leave (client : Client)
  | post (about : Client) (payload : Payload) (sends : List (Client × Payload))

variable [DecidableEq Client]

inductive Step : Finset Client → Action Client Payload → Finset Client → Prop where
  | join {members : Finset Client} {client : Client} :
      client ∉ members → Step members (.join client) (insert client members)
  | leave {members : Finset Client} {client : Client} :
      client ∈ members → Step members (.leave client) (members.erase client)
  | post {members : Finset Client} {about : Client} {payload : Payload}
      {sends : List (Client × Payload)} :
      Fanout members about payload sends → Step members (.post about payload sends) members

/-- The members change from the first to the second set by these actions. -/
inductive History : Finset Client → List (Action Client Payload) → Finset Client → Prop where
  | nil {members : Finset Client} : History members [] members
  | cons {members middle final : Finset Client} {action : Action Client Payload}
      {actions : List (Action Client Payload)} :
      Step members action middle → History middle actions final →
      History members (action :: actions) final

def addressedTo (client : Client) (actions : List (Action Client Payload)) : List Payload :=
  actions.flatMap fun
    | .post _ _ sends => (sends.filter fun send => send.1 = client).map Prod.snd
    | _ => []

def heardBy (client : Client) (actions : List (Action Client Payload)) : List Payload :=
  actions.flatMap fun
    | .post about payload _ => if about = client then [] else [payload]
    | _ => []

@[simp] theorem addressedTo_nil (client : Client) :
    addressedTo client ([] : List (Action Client Payload)) = [] := rfl

@[simp] theorem heardBy_nil (client : Client) :
    heardBy client ([] : List (Action Client Payload)) = [] := rfl

@[simp] theorem addressedTo_append (client : Client) (left right : List (Action Client Payload)) :
    addressedTo client (left ++ right) = addressedTo client left ++ addressedTo client right := by
  simp [addressedTo]

@[simp] theorem heardBy_append (client : Client) (left right : List (Action Client Payload)) :
    heardBy client (left ++ right) = heardBy client left ++ heardBy client right := by
  simp [heardBy]

theorem Fanout.filter_eq {members : Finset Client} {about : Client} {payload : Payload}
    {sends : List (Client × Payload)} (fanout : Fanout members about payload sends)
    (client : Client) :
    (sends.filter fun send => send.1 = client).map Prod.snd =
      if client ∈ members ∧ client ≠ about then [payload] else [] := by
  have filtered : (sends.filter fun send => send.1 = client).map Prod.fst =
      (sends.map Prod.fst).filter (fun address => address = client) := by
    rw [List.filter_map]
    rfl
  have constant : (sends.filter fun send => send.1 = client).map Prod.snd =
      ((sends.filter fun send => send.1 = client).map Prod.fst).map fun _ => payload := by
    rw [List.map_map]
    apply List.map_congr_left
    intro send member
    exact fanout.faithful send (List.mem_filter.mp member).1
  rw [constant, filtered]
  by_cases addressed : client ∈ sends.map Prod.fst
  · rw [if_pos ((fanout.exact client).mp addressed)]
    have alone : (sends.map Prod.fst).filter (fun address => address = client) = [client] := by
      rw [List.filter_eq, List.count_eq_one_of_mem fanout.once addressed]
      rfl
    rw [alone]
    rfl
  · rw [if_neg (fun member => addressed ((fanout.exact client).mpr member))]
    have none : (sends.map Prod.fst).filter (fun address => address = client) = [] := by
      rw [List.filter_eq_nil_iff]
      intro address member same
      exact addressed (of_decide_eq_true same ▸ member)
    rw [none]
    rfl

theorem Fanout.of_insert {members : Finset Client} {about : Client} {payload : Payload}
    {sends : List (Client × Payload)}
    (fanout : Fanout (insert about members) about payload sends) :
    Fanout members about payload sends where
  once := fanout.once
  exact := by
    intro client
    rw [fanout.exact, Finset.mem_insert]
    exact ⟨fun told => ⟨told.1.resolve_left told.2, told.2⟩, fun told => ⟨.inr told.1, told.2⟩⟩
  faithful := fanout.faithful

theorem History.append {first middle final : Finset Client}
    {left right : List (Action Client Payload)} (leading : History first left middle)
    (trailing : History middle right final) : History first (left ++ right) final := by
  induction leading with
  | nil => exact trailing
  | cons step _ ih => exact .cons step (ih trailing)

theorem History.split {first final : Finset Client} {left right : List (Action Client Payload)}
    (history : History first (left ++ right) final) :
    ∃ middle, History first left middle ∧ History middle right final := by
  induction left generalizing first with
  | nil => exact ⟨first, .nil, history⟩
  | cons action left ih =>
      cases history with
      | cons step rest =>
          obtain ⟨middle, leading, trailing⟩ := ih rest
          exact ⟨middle, .cons step leading, trailing⟩

/-- Until it leaves, a member stays one and is sent what the others post. -/
theorem History.member_hears {first final : Finset Client}
    {actions : List (Action Client Payload)} (history : History first actions final)
    {client : Client} (member : client ∈ first) (stays : .leave client ∉ actions) :
    client ∈ final ∧ addressedTo client actions = heardBy client actions := by
  induction history with
  | nil => exact ⟨member, rfl⟩
  | @cons members middle final action actions step rest ih =>
      have staysRest : .leave client ∉ actions := fun leaves => stays (.tail _ leaves)
      cases step with
      | join fresh => exact ih (Finset.mem_insert_of_mem member) staysRest
      | @leave leaver present =>
          have other : client ≠ leaver := fun same => stays (same ▸ .head _)
          exact ih (Finset.mem_erase.mpr ⟨other, member⟩) staysRest
      | @post about payload sends fanout =>
          obtain ⟨final, equal⟩ := ih member staysRest
          refine ⟨final, ?_⟩
          rw [← List.singleton_append, addressedTo_append, heardBy_append, equal]
          congr 1
          simp only [addressedTo, heardBy, List.flatMap_cons, List.flatMap_nil, List.append_nil,
            fanout.filter_eq]
          by_cases same : client = about
          · simp [same]
          · simp [member, same, Ne.symm same]

theorem History.outsider_hears_nothing {first final : Finset Client}
    {actions : List (Action Client Payload)} (history : History first actions final)
    {client : Client} (outside : client ∉ first) (staysOut : .join client ∉ actions) :
    client ∉ final ∧ addressedTo client actions = [] := by
  induction history with
  | nil => exact ⟨outside, rfl⟩
  | @cons members middle final action actions step rest ih =>
      have staysRest : .join client ∉ actions := fun joins => staysOut (.tail _ joins)
      cases step with
      | @join joiner fresh =>
          have other : client ≠ joiner := fun same => staysOut (same ▸ .head _)
          exact ih (by simp [other, outside]) staysRest
      | leave present => exact ih (fun stays => outside (Finset.mem_of_mem_erase stays)) staysRest
      | @post about payload sends fanout =>
          obtain ⟨final, nothing⟩ := ih outside staysRest
          refine ⟨final, ?_⟩
          rw [← List.singleton_append, addressedTo_append, nothing]
          simp [addressedTo, fanout.filter_eq, outside]

/-- Between joining and leaving, a client is sent exactly what others post. -/
theorem History.session {first final : Finset Client}
    {before window after : List (Action Client Payload)} {client : Client}
    (history : History first (before ++ .join client :: (window ++ after)) final)
    (stays : .leave client ∉ window) :
    addressedTo client window = heardBy client window := by
  obtain ⟨_, _, joined⟩ := history.split
  cases joined with
  | cons step rest =>
      obtain ⟨_, during, _⟩ := rest.split
      cases step with
      | join fresh => exact (during.member_hears (Finset.mem_insert_self _ _) stays).2

theorem History.absent {first final : Finset Client}
    {before window after : List (Action Client Payload)} {client : Client}
    (history : History first (before ++ .leave client :: (window ++ after)) final)
    (staysOut : .join client ∉ window) : addressedTo client window = [] := by
  obtain ⟨_, _, left⟩ := history.split
  cases left with
  | cons step rest =>
      obtain ⟨_, during, _⟩ := rest.split
      cases step with
      | leave present => exact (during.outsider_hears_nothing (Finset.notMem_erase _ _) staysOut).2

end Room

end CBasics.Library
