import Contra.Packet
import Mathlib.Logic.Function.Basic

/-! # Calls of a transport

The calls a program makes through `Relay` on the transports of one name, and the two lists of
packets such a history determines: the packets since the last first send of an object, which is
what a file holds, and the packets since the last receive, which is what a queue holds. Histories
are newest first. -/

namespace Contra

/-- A call on one of the transport objects `ι`. -/
inductive Call (ι : Type*) where
  /-- `Send(packet)` on object `i`. -/
  | send (i : ι) (packet : Packet)
  /-- `Receive()` on object `i`. -/
  | receive (i : ι)
  deriving DecidableEq

namespace Call

variable {ι : Type*}

/-- The packets sent in a list of calls, in their order. -/
def sent : List (Call ι) → List Packet
  | [] => []
  | .send _ packet :: calls => packet :: sent calls
  | .receive _ :: calls => sent calls

/-- The object of a call. -/
def object : Call ι → ι
  | .send i _ => i
  | .receive i => i

/-- The calls on a file, where every object has a filename. -/
def onFile (filename : ι → String) (file : String) (calls : List (Call ι)) : List (Call ι) :=
  calls.filter fun call => filename call.object = file

section OnFile

variable {filename : ι → String} {file : String} {call : Call ι} {earlier : List (Call ι)}

theorem onFile_cons_of_eq (h : filename call.object = file) :
    onFile filename file (call :: earlier) = call :: onFile filename file earlier :=
  List.filter_cons_of_pos (decide_eq_true h)

theorem onFile_cons_of_ne (h : filename call.object ≠ file) :
    onFile filename file (call :: earlier) = onFile filename file earlier :=
  List.filter_cons_of_neg (by simpa using h)

theorem onFile_reverse (calls : List (Call ι)) :
    onFile filename file calls.reverse = (onFile filename file calls).reverse := by
  rw [onFile, onFile, List.filter_reverse]

/-- Where all objects have one filename, all calls are on its file. -/
@[simp] theorem onFile_const (calls : List (Call ι)) : onFile (fun _ => file) file calls = calls := by
  simp [onFile]

end OnFile

variable [DecidableEq ι]

/-- Whether a call is a send by object `i`. -/
def isSendBy (i : ι) : Call ι → Bool
  | .send j _ => j = i
  | .receive _ => false

/-- Whether object `i` has sent in a history. -/
def hasSent (i : ι) (earlier : List (Call ι)) : Bool := earlier.any (isSendBy i)

/-- The packets sent since, and including, the most recent send that was the first send of its
object. -/
def sinceFirstSend : List (Call ι) → List Packet
  | [] => []
  -- a first send drops what the file held, any other is added to it
  | .send i packet :: earlier =>
      if hasSent i earlier then sinceFirstSend earlier ++ [packet] else [packet]
  | .receive _ :: earlier => sinceFirstSend earlier

omit [DecidableEq ι] in
/-- The packets sent since the most recent receive by any object. -/
def sinceReceive : List (Call ι) → List Packet
  | [] => []
  | .send _ packet :: earlier => sinceReceive earlier ++ [packet]
  | .receive _ :: _ => []

omit [DecidableEq ι] in
@[simp] theorem sinceReceive_send (i : ι) (packet : Packet) (earlier : List (Call ι)) :
    sinceReceive (.send i packet :: earlier) = sinceReceive earlier ++ [packet] := rfl

/-- An object has sent when one of its sends is in the history. -/
theorem hasSent_iff {i : ι} {earlier : List (Call ι)} :
    hasSent i earlier = true ↔ ∃ packet, Call.send i packet ∈ earlier := by
  rw [hasSent, List.any_eq_true]
  constructor
  · rintro ⟨call, hmem, hcall⟩
    cases call with
    | send j packet =>
      obtain rfl : j = i := by simpa [isSendBy] using hcall
      exact ⟨packet, hmem⟩
    | receive j => simp [isSendBy] at hcall
  · rintro ⟨packet, hmem⟩
    exact ⟨_, hmem, by simp [isSendBy]⟩

theorem hasSent_send (i j : ι) (packet : Packet) (earlier : List (Call ι)) :
    hasSent i (.send j packet :: earlier) = (decide (j = i) || hasSent i earlier) := rfl

theorem hasSent_receive (i j : ι) (earlier : List (Call ι)) :
    hasSent i (.receive j :: earlier) = hasSent i earlier := rfl

/-- An object has sent if it has on its file. -/
theorem hasSent_onFile {filename : ι → String} {file : String} {i : ι} (hi : filename i = file)
    (earlier : List (Call ι)) : hasSent i (onFile filename file earlier) = hasSent i earlier := by
  induction earlier with
  | nil => rfl
  | cons call earlier ih =>
    by_cases hcall : filename call.object = file
    · rw [onFile_cons_of_eq hcall, hasSent, hasSent, List.any_cons, List.any_cons, ← hasSent,
        ← hasSent, ih]
    · -- a call on another file is not one of the object
      have hother : isSendBy i call = false := by
        cases call with
        | receive j => rfl
        | send j packet =>
          refine decide_eq_false ?_
          rintro rfl
          exact hcall hi
      rw [onFile_cons_of_ne hcall, ih, hasSent, hasSent, List.any_cons, hother, Bool.false_or]

/-- Without a send there is nothing since the first one. -/
theorem sinceFirstSend_eq_nil {earlier : List (Call ι)} (h : ∀ i, hasSent i earlier = false) :
    sinceFirstSend earlier = [] := by
  induction earlier with
  | nil => rfl
  | cons call earlier ih =>
    cases call with
    | send i packet =>
      have hi := h i
      simp [hasSent_send] at hi
    | receive i => exact ih h

/-- Only sent packets are in the list since the last first send. -/
theorem exists_send_of_mem_sinceFirstSend {packet : Packet} {earlier : List (Call ι)}
    (h : packet ∈ sinceFirstSend earlier) : ∃ i, Call.send i packet ∈ earlier := by
  induction earlier with
  | nil => cases h
  | cons call earlier ih =>
    cases call with
    | send j sentPacket =>
      rw [sinceFirstSend] at h
      split_ifs at h
      · rcases List.mem_append.mp h with hold | hnew
        · obtain ⟨i, hi⟩ := ih hold
          exact ⟨i, List.mem_cons_of_mem _ hi⟩
        · obtain rfl := List.mem_singleton.mp hnew
          exact ⟨j, List.mem_cons_self⟩
      · obtain rfl := List.mem_singleton.mp h
        exact ⟨j, List.mem_cons_self⟩
    | receive j =>
      obtain ⟨i, hi⟩ := ih h
      exact ⟨i, List.mem_cons_of_mem _ hi⟩

/-- The sends of one object, newest first, are all sent since its first. -/
theorem sinceFirstSend_sends (i : ι) (packets : List Packet) :
    sinceFirstSend (packets.map (Call.send i)).reverse = packets := by
  induction packets using List.reverseRecOn with
  | nil => rfl
  | append_singleton packets packet ih =>
    rw [List.map_append, List.map_singleton, List.reverse_append, List.reverse_singleton,
      List.singleton_append, sinceFirstSend, ih]
    by_cases hempty : packets = []
    · subst hempty
      simp
    · have hsent : hasSent i (packets.map (Call.send i)).reverse = true := by
        obtain ⟨q, hq⟩ := List.exists_mem_of_ne_nil packets hempty
        exact hasSent_iff.mpr ⟨q, by simp [hq]⟩
      rw [if_pos hsent]

/-! ### Both lists are what was sent last -/

omit [DecidableEq ι] in
theorem sent_append (front back : List (Call ι)) : sent (front ++ back) = sent front ++ sent back := by
  induction front with
  | nil => rfl
  | cons call front ih => cases call <;> simp [sent, ih]

omit [DecidableEq ι] in
/-- The packets since the last receive are the last ones sent. -/
theorem sinceReceive_suffix (earlier : List (Call ι)) :
    sinceReceive earlier <:+ sent earlier.reverse := by
  induction earlier with
  | nil => exact List.suffix_rfl
  | cons call earlier ih =>
    rw [List.reverse_cons, sent_append]
    cases call with
    | send i packet =>
      obtain ⟨front, hfront⟩ := ih
      exact ⟨front, by rw [← hfront, List.append_assoc]; rfl⟩
    | receive i => exact List.nil_suffix

/-- The packets since the last first send are the last ones sent. -/
theorem sinceFirstSend_suffix (earlier : List (Call ι)) :
    sinceFirstSend earlier <:+ sent earlier.reverse := by
  induction earlier with
  | nil => exact List.suffix_rfl
  | cons call earlier ih =>
    rw [List.reverse_cons, sent_append]
    cases call with
    | send i packet =>
      rw [sinceFirstSend]
      obtain ⟨front, hfront⟩ := ih
      split_ifs
      · exact ⟨front, by rw [← hfront, List.append_assoc]; rfl⟩
      · exact List.suffix_append _ _
    | receive i =>
      rw [show sent [Call.receive i] = [] from rfl, List.append_nil]
      exact ih

/-- So the two lists are equal when they are equally long. -/
theorem sinceFirstSend_eq_sinceReceive_iff (earlier : List (Call ι)) :
    sinceFirstSend earlier = sinceReceive earlier
      ↔ (sinceFirstSend earlier).length = (sinceReceive earlier).length := by
  constructor
  · intro h
    rw [h]
  · intro h
    obtain ⟨first, hfirst⟩ := sinceFirstSend_suffix earlier
    obtain ⟨second, hsecond⟩ := sinceReceive_suffix earlier
    exact (List.append_inj' (hfirst.trans hsecond.symm) h).2

end Call

end Contra
