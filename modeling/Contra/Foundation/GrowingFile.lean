import Contra.Foundation.FileStream
import Contra.Foundation.Transition

/-! # Reading a file that grows

A program that reads a file while others append to it. Its bytes reach the program in pieces, whenever the
stream fetches more of them; a `read` goes on until it has all the bytes that it asks for, or until the
file has no more at that moment.

A `StreamProgram` is given by its reads, together with what it computes on a stream that has all its bytes
at once. `Cursor` is such a program in the middle of its run on a growing file, and `Follows` is the
invariant that every move of the program and every growth of the file keeps.

* `Follows.exists_moment`: the program returns what it would return if it ran, all at once, on the file of
  some moment between its start and its end;
* `Follows.exists_run_ended`: it can always come to its end. -/

namespace FileStream

namespace Reader

/-- The stream reads nothing any more. -/
def bad (stream : Reader) : Bool := stream.eof || stream.fail

theorem eq_good_of_not_bad {stream : Reader} (h : stream.bad = false) : stream = good stream.rest := by
  obtain ⟨rest, eof, fail⟩ := stream
  obtain ⟨rfl, rfl⟩ : eof = false ∧ fail = false := by simpa [bad] using h
  rfl

/-- A read of bytes that are there leaves alone what follows them. -/
theorem read_append_of_le {buffer front : List UInt8} {size : ℕ} (hbuffer : size ≤ buffer.length)
    (hfront : size ≤ front.length) (tail : List UInt8) :
    (good (front ++ tail)).read buffer size
      = .ok (front.take size ++ buffer.drop size, good (front.drop size ++ tail)) := by
  rw [read_of_le hbuffer (by rw [List.length_append]; omega), List.take_append_of_le_length hfront,
    List.drop_append_of_le_length hfront]

/-- A stream that reads nothing stays one. -/
theorem bad_of_read {stream stream' : Reader} {buffer buffer' : List UInt8} {count : ℤ}
    (h : stream.read buffer count = .ok (buffer', stream')) (hbad : stream.bad = true) :
    stream'.bad = true := by
  unfold read at h
  split_ifs at h with hbuffer hstate
  · obtain ⟨-, rfl⟩ := Prod.mk.inj (Except.ok.inj h)
    simp [bad]
  · exact absurd hbad hstate

/-- What is left of a stream does not grow. -/
theorem remaining_le_of_read {stream stream' : Reader} {buffer buffer' : List UInt8} {count : ℤ}
    (h : stream.read buffer count = .ok (buffer', stream')) : stream'.remaining ≤ stream.remaining := by
  obtain ⟨hrest, heof⟩ := rest_le_of_read h
  unfold remaining
  cases hstream : stream.eof with
  | true => simp [heof hstream, hrest]
  | false => split <;> simp <;> omega

end Reader

open Reader

/-- A program that reads from a stream. -/
structure StreamProgram (Place Result : Type*) where
  /-- The place at which it starts. -/
  start : Place
  /-- The result, at the places at which it has ended. -/
  outcome : Place → Option Result
  /-- The number of bytes that the next read asks for. -/
  wanted : Place → ℕ
  /-- The next read, and the program up to the one after it. -/
  next : Place → Reader → Place × Reader
  /-- The result from a place on, on a stream that has all its bytes. -/
  result : Place → Reader → Result
  /-- A bound on the number of reads left. -/
  readsLeft : Place → Reader → ℕ
  /-- An ended program has its result. -/
  result_of_outcome : ∀ place stream r, outcome place = some r → result place stream = r
  /-- The result is the one after the next read. -/
  result_next : ∀ place stream,
    result (next place stream).1 (next place stream).2 = result place stream
  /-- A read that finds all its bytes does not depend on what follows them. -/
  next_append : ∀ place front, wanted place ≤ front.length → ∃ rest,
    (next place (good front)).2 = good rest ∧
      ∀ tail, next place (good (front ++ tail)) = ((next place (good front)).1, good (rest ++ tail))
  /-- A read that does not find all its bytes ends the stream. -/
  next_short : ∀ place front, front.length < wanted place → (next place (good front)).2.bad = true
  /-- A stream that reads nothing goes on to do so. -/
  bad_next : ∀ place stream, stream.bad = true → (next place stream).2.bad = true
  /-- Every read is one of those left. -/
  readsLeft_next : ∀ place stream, outcome place = none →
    readsLeft (next place stream).1 (next place stream).2 < readsLeft place stream

/-- A program in the middle of its run. -/
structure Cursor (Place : Type*) where
  /-- Where it is. -/
  place : Place
  /-- The stream, with the bytes fetched and not read yet. -/
  stream : Reader
  /-- The number of bytes fetched. -/
  offset : ℕ

/-- What can happen to a running program. -/
inductive CursorMove where
  /-- The stream fetches bytes of the file. -/
  | fetch (count : ℕ)
  /-- A read comes to its end. -/
  | read

namespace Cursor

variable {Place Result : Type*} (program : StreamProgram Place Result)

/-- The program on a file that was just opened. -/
def opened : Cursor Place := ⟨program.start, good [], 0⟩

/-- One move, with the file as it is. -/
def move (content : List UInt8) (cursor : Cursor Place) : CursorMove → Option (Cursor Place)
  | .fetch count =>
    if cursor.stream.bad then none
    else
      let bytes := (content.drop cursor.offset).take count
      some { cursor with
        stream := good (cursor.stream.rest ++ bytes)
        offset := cursor.offset + bytes.length }
  | .read =>
    if (program.outcome cursor.place).isSome then none
    -- the bytes are there, or there are no more of them, or the stream does not look for them
    else if program.wanted cursor.place ≤ cursor.stream.rest.length ∨ content.length ≤ cursor.offset
        ∨ cursor.stream.bad then
      let (place, stream) := program.next cursor.place cursor.stream
      some { cursor with place := place, stream := stream }
    else none

variable {program} {content : List UInt8} {cursor cursor' : Cursor Place}

theorem move_fetch_eq_some {count : ℕ} (h : cursor.move program content (.fetch count) = some cursor') :
    cursor.stream.bad = false ∧
      cursor' = ⟨cursor.place, good (cursor.stream.rest ++ (content.drop cursor.offset).take count),
        cursor.offset + ((content.drop cursor.offset).take count).length⟩ := by
  simp only [move] at h
  split_ifs at h with hbad
  exact ⟨by simpa using hbad, (Option.some.inj h).symm⟩

theorem move_read_eq_some (h : cursor.move program content .read = some cursor') :
    (program.wanted cursor.place ≤ cursor.stream.rest.length ∨ content.length ≤ cursor.offset
        ∨ cursor.stream.bad = true) ∧
      cursor' = ⟨(program.next cursor.place cursor.stream).1,
        (program.next cursor.place cursor.stream).2, cursor.offset⟩ := by
  simp only [move] at h
  split_ifs at h with hended hready
  exact ⟨hready, (Option.some.inj h).symm⟩

/-! ## The invariant -/

variable (program) in
/-- On the way through a file: whatever comes behind the present content, the program returns what it would
return on all of it. -/
structure Underway (content : List UInt8) (cursor : Cursor Place) : Prop where
  /-- The stream is good. -/
  good : cursor.stream.bad = false
  /-- The bytes fetched are in the file. -/
  offset : cursor.offset ≤ content.length
  /-- What is left of the run. -/
  result : ∀ tail, program.result cursor.place
      (Reader.good (cursor.stream.rest ++ (content.drop cursor.offset ++ tail)))
    = program.result program.start (Reader.good (content ++ tail))

variable (program) in
/-- Past the end of the file: the result is the one on the file of an earlier moment. -/
structure Settled (began content : List UInt8) (cursor : Cursor Place) : Prop where
  /-- The stream reads nothing any more. -/
  bad : cursor.stream.bad = true
  /-- The moment at which the end was found. -/
  result : ∃ moment, began <+: moment ∧ moment <+: content ∧
    program.result cursor.place cursor.stream = program.result program.start (Reader.good moment)

variable (program) in
/-- A run that began on the file `began`, which is now `content`. -/
structure Follows (began content : List UInt8) (cursor : Cursor Place) : Prop where
  /-- The file has grown. -/
  grown : began <+: content
  /-- Where the run is. -/
  place : Underway program content cursor ∨ Settled program began content cursor

/-- A read of bytes that are there. -/
theorem Underway.read (h : Underway program content cursor)
    (hready : program.wanted cursor.place ≤ cursor.stream.rest.length) :
    Underway program content ⟨(program.next cursor.place cursor.stream).1,
      (program.next cursor.place cursor.stream).2, cursor.offset⟩ := by
  obtain ⟨rest, hrest, happend⟩ := program.next_append cursor.place cursor.stream.rest hready
  rw [← eq_good_of_not_bad h.good] at hrest happend
  refine ⟨by rw [hrest]; rfl, h.offset, fun tail => ?_⟩
  rw [← h.result tail, ← program.result_next cursor.place, happend, hrest]
  rfl

/-- A read that finds the end of the file: no bytes come behind the present content. -/
theorem Underway.read_end {began : List UInt8} (h : Underway program content cursor)
    (hgrown : began <+: content) (hend : content.length ≤ cursor.offset)
    (hshort : cursor.stream.rest.length < program.wanted cursor.place) :
    Settled program began content ⟨(program.next cursor.place cursor.stream).1,
      (program.next cursor.place cursor.stream).2, cursor.offset⟩ := by
  have hstream := eq_good_of_not_bad h.good
  refine ⟨?_, content, hgrown, List.prefix_rfl, (program.result_next ..).trans ?_⟩
  · rw [hstream]
    exact program.next_short _ _ hshort
  · have hresult := h.result []
    rwa [List.drop_of_length_le hend, List.append_nil, List.append_nil, List.append_nil,
      ← hstream] at hresult

/-- A read does not change the result of a settled run. -/
theorem Settled.read {began : List UInt8} (h : Settled program began content cursor) :
    Settled program began content ⟨(program.next cursor.place cursor.stream).1,
      (program.next cursor.place cursor.stream).2, cursor.offset⟩ := by
  obtain ⟨hbad, moment, hbegan, hmoment, hresult⟩ := h
  exact ⟨program.bad_next _ _ hbad, moment, hbegan, hmoment,
    (program.result_next ..).trans hresult⟩

/-- All bytes can be fetched. -/
theorem Underway.fetch_all (h : Underway program content cursor) : ∃ cursor',
    cursor.move program content (.fetch content.length) = some cursor' ∧
      content.length ≤ cursor'.offset := by
  refine ⟨_, by rw [move, if_neg (by rw [h.good]; exact Bool.false_ne_true)], ?_⟩
  have hoffset := h.offset
  simp only [List.length_take, List.length_drop]
  omega

namespace Follows

variable {began : List UInt8}

/-- At the start nothing is read. -/
theorem opened (content : List UInt8) : Follows program content content (opened program) :=
  ⟨List.prefix_rfl, Or.inl ⟨rfl, Nat.zero_le _, fun _ => rfl⟩⟩

/-- The file may grow at any time. -/
theorem grow (h : Follows program began content cursor) (bytes : List UInt8) :
    Follows program began (content ++ bytes) cursor := by
  have hprefix := List.prefix_append content bytes
  refine ⟨h.grown.trans hprefix, ?_⟩
  rcases h.place with hunderway | ⟨hbad, moment, hbegan, hmoment, hresult⟩
  · refine Or.inl ⟨hunderway.good, hunderway.offset.trans hprefix.length_le, fun tail => ?_⟩
    rw [List.drop_append_of_le_length hunderway.offset, List.append_assoc, List.append_assoc,
      hunderway.result]
  · exact Or.inr ⟨hbad, moment, hbegan, hmoment.trans hprefix, hresult⟩

/-- Every move of the program keeps the invariant. -/
theorem move (h : Follows program began content cursor) {action : CursorMove}
    (hmove : cursor.move program content action = some cursor') :
    Follows program began content cursor' := by
  refine ⟨h.grown, ?_⟩
  cases action with
  | fetch count =>
    obtain ⟨hgood, rfl⟩ := move_fetch_eq_some hmove
    rcases h.place with hunderway | hsettled
    · -- the bytes go from the file to the stream
      have hoffset := hunderway.offset
      refine Or.inl ⟨rfl, ?_, fun tail => ?_⟩
      · simp only [List.length_take, List.length_drop]
        omega
      · rw [← hunderway.result tail]
        dsimp only [Reader.good]
        rw [← List.drop_drop, List.append_assoc, ← List.append_assoc (List.take _ _),
          List.prefix_iff_eq_append.mp (List.take_prefix ..)]
    · rw [hsettled.bad] at hgood
      cases hgood
  | read =>
    obtain ⟨hready, rfl⟩ := move_read_eq_some hmove
    rcases h.place with hunderway | hsettled
    · by_cases hwanted : program.wanted cursor.place ≤ cursor.stream.rest.length
      · exact Or.inl (hunderway.read hwanted)
      · rw [hunderway.good] at hready
        have hend := (hready.resolve_left hwanted).resolve_right Bool.false_ne_true
        exact Or.inr (hunderway.read_end h.grown hend (Nat.not_le.mp hwanted))
    · exact Or.inr hsettled.read

/-- **The moment of a run.** A program that has ended returned what it returns on the file of a moment
between its start and its end. -/
theorem exists_moment (h : Follows program began content cursor) {r : Result}
    (houtcome : program.outcome cursor.place = some r) :
    ∃ moment, began <+: moment ∧ moment <+: content ∧
      r = program.result program.start (good moment) := by
  rcases h.place with hunderway | ⟨-, moment, hbegan, hmoment, hresult⟩
  · refine ⟨content, h.grown, List.prefix_rfl, ?_⟩
    have hresult := hunderway.result []
    rwa [program.result_of_outcome _ _ r houtcome, List.append_nil] at hresult
  · rw [program.result_of_outcome _ _ r houtcome] at hresult
    exact ⟨moment, hbegan, hmoment, hresult⟩

end Follows

/-- Reads alone end a program that finds the end of the file. -/
theorem exists_reads (hend : content.length ≤ cursor.offset ∨ cursor.stream.bad = true) :
    ∃ count last, Transition.run (Cursor.move program content) cursor
        (List.replicate count .read) = some last ∧ (program.outcome last.place).isSome := by
  induction hleft : program.readsLeft cursor.place cursor.stream using Nat.strong_induction_on
    generalizing cursor with
  | _ left ih =>
    cases houtcome : program.outcome cursor.place with
    | some r => exact ⟨0, cursor, rfl, by rw [houtcome]; rfl⟩
    | none =>
      have hmove : cursor.move program content .read
          = some ⟨(program.next cursor.place cursor.stream).1,
            (program.next cursor.place cursor.stream).2, cursor.offset⟩ := by
        rw [Cursor.move, houtcome, if_neg (by simp), if_pos (Or.inr hend)]
      have hless := program.readsLeft_next _ cursor.stream houtcome
      rw [hleft] at hless
      obtain ⟨count, last, hrun, hended⟩ := @ih _ hless ⟨_, _, cursor.offset⟩
        (hend.imp_right (program.bad_next _ _)) rfl
      refine ⟨count + 1, last, ?_, hended⟩
      rw [List.replicate_succ]
      exact Transition.run_cons_eq_some.mpr ⟨_, hmove, hrun⟩

/-- **A program can come to its end** with the file as it is. -/
theorem Follows.exists_run_ended {began : List UInt8} (h : Follows program began content cursor) :
    ∃ moves last, Transition.run (Cursor.move program content) cursor moves = some last ∧
      (program.outcome last.place).isSome := by
  rcases h.place with hunderway | hsettled
  · obtain ⟨fetched, hfetch, hend⟩ := hunderway.fetch_all
    obtain ⟨count, last, hrun, hended⟩ := exists_reads (Or.inl hend)
    exact ⟨_ :: List.replicate count .read, last,
      Transition.run_cons_eq_some.mpr ⟨fetched, hfetch, hrun⟩, hended⟩
  · obtain ⟨count, last, hrun, hended⟩ := exists_reads (Or.inr hsettled.bad)
    exact ⟨_, last, hrun, hended⟩

end Cursor

end FileStream
