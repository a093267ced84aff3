import Centrald.Proofs.JobLog
import Centrald.Server.JobStream
import Mathlib.Data.List.Induction

/-!
# `Centrald.Proofs.JobStream`: what a stream delivers of the log

The events of a log are numbered by their position
(`LogInv.sequences`). So the query of a poll is a slice of the log
(`selectEvents_eq`), and what a stream has delivered is the slice from
the requested sequence up to its cursor (`StreamInv`). The log only
grows at its end, which keeps the slice.

A follow stream stops at a terminal event. That event is the last of
the log, so the slice is then everything from the requested sequence
on, and the log never grows again. A stream that does not follow stops
after one batch. It delivers what was stored at the request only if
that fits into the 128 events of a batch, and only within the lifetime
of the stream.
-/

set_option autoImplicit false

namespace Centrald

/-- The log that the stream reads. -/
abbrev Server.StreamSystem.log {π : Type} (s : Server.StreamSystem π) : List Server.EventRow :=
  Server.eventsOf s.db s.stream.jobId

namespace Proofs

open Durable Server Common

variable {π : Type}

/-! ### The query is a slice -/

section Slice

variable {events : List EventRow} {event : EventRow} {n : Nat}

/-- The number of an event is its position. -/
theorem LogInv.of_concat (h : LogInv (events ++ [event])) :
    LogInv events ∧ event.sequence = events.length := by
  have hsequences := h.sequences
  rw [List.map_append, List.length_append, List.length_singleton, List.range_succ,
    List.map_append] at hsequences
  obtain ⟨hinit, hlast⟩ := List.append_inj' hsequences rfl
  refine ⟨⟨hinit, fun e he => ?_⟩, (List.cons.inj hlast).1⟩
  have hmem : e ∈ events := (List.dropLast_subset events) he
  exact h.terminalLast e (by rwa [List.dropLast_concat])

section

variable (h : LogInv events)
include h

theorem LogInv.filter_eq_drop (n : Nat) :
    events.filter (fun event => decide ((n : Int) ≤ event.sequence)) = events.drop n := by
  induction events using List.reverseRecOn with
  | nil => simp
  | append_singleton events event ih =>
    obtain ⟨hinit, hsequence⟩ := h.of_concat
    rw [List.filter_append, ih hinit]
    by_cases hn : n ≤ events.length
    · grind
    · have hdrop : ¬ ((n : Int) ≤ event.sequence) := by omega
      have hlength : (events ++ [event]).length ≤ n := by
        grind
      rw [List.drop_eq_nil_of_le (by omega), List.drop_eq_nil_of_le hlength]
      simp [hdrop]

/-- The numbers grow along the log. -/
theorem LogInv.pairwise : events.Pairwise fun a b => a.sequence ≤ b.sequence := by
  induction events using List.reverseRecOn with
  | nil => exact .nil
  | append_singleton events event ih =>
    obtain ⟨hinit, hsequence⟩ := h.of_concat
    refine List.pairwise_append.2 ⟨ih hinit, by simp, fun a ha b hb => ?_⟩
    obtain rfl := List.mem_singleton.1 hb
    have hmem : a.sequence ∈ events.map EventRow.sequence := List.mem_map_of_mem ha
    rw [hinit.sequences] at hmem
    grind

theorem selectEvents_eq (n : Nat) : selectEvents n events = (events.drop n).take streamBatch := by
  rw [selectEvents, h.filter_eq_drop,
    List.Pairwise.insertionSort_eq (h.pairwise.sublist (List.drop_sublist n events))]

theorem LogInv.sequence_eq (hn : events[n]? = some event) :
    event.sequence = n ∧ n < events.length := by
  have hlt : n < events.length := (List.getElem?_eq_some_iff.1 hn).1
  have hmap : (events.map EventRow.sequence)[n]? = some event.sequence := by
    rw [List.getElem?_map, hn]
    rfl
  rw [h.sequences, List.getElem?_map, List.getElem?_range hlt] at hmap
  exact ⟨(Option.some.inj hmap).symm, hlt⟩

end

/-- What sending the next `k` events does. -/
theorem foldl_send (stream : JobStream) (h : LogInv events) (hbound : events.length < 2 ^ 63)
    (hnext : stream.next = n) (hn : n ≤ events.length) (k : Nat) :
    ((events.drop n).take k).foldl JobStream.send stream = { stream with
      next := (min (n + k) events.length : Nat)
      delivered := stream.delivered ++
        ((events.drop n).take k).map (EventRow.message stream.jobId) } := by
  induction k with
  | zero =>
    cases stream
    grind
  | succ k ih =>
    rw [List.take_add_one, List.foldl_append, ih, List.getElem?_drop]
    cases hget : events[n + k]? with
    | none =>
      -- the log has ended, so the batch does not grow
      grind
    | some event =>
      obtain ⟨hsequence, hlt⟩ := h.sequence_eq hget
      have hsucc : saturatingSucc event.sequence = (min (n + (k + 1)) events.length : Nat) := by
        rw [saturatingSucc, hsequence]
        omega
      simp [JobStream.send, hsucc]

/-- A terminal event is the last one. -/
theorem LogInv.terminal_index (h : LogInv events) (hn : events[n]? = some event)
    (hterminal : event.terminal = true) : n + 1 = events.length := by
  obtain ⟨-, hlt⟩ := h.sequence_eq hn
  by_contra hne
  have hinit : events.dropLast[n]? = some event := by
    rw [List.getElem?_dropLast, if_pos (by omega), hn]
  rw [h.terminalLast event (List.mem_of_getElem? hinit)] at hterminal
  cases hterminal

/-- A log with a terminal event does not grow. -/
theorem LogInv.eq_of_longer {later : List EventRow} (hlater : LogInv later)
    (hlonger : events <+: later) (hlast : events.getLast? = some event)
    (hterminal : event.terminal = true) : later = events := by
  obtain ⟨rest, rfl⟩ := hlonger
  have hpos : events ≠ [] := by
    rintro rfl
    cases hlast
  have hindex : (events ++ rest)[events.length - 1]? = some event := by
    grind
  have hlength := hlater.terminal_index hindex hterminal
  rw [List.length_append] at hlength
  have hrest : rest = [] := List.length_eq_zero_iff.1 (by
    grind)
  rw [hrest, List.append_nil]

/-- The slice up to the cursor, followed by the next batch. -/
theorem slice_append {start : Nat} (hstart : start ≤ n) (hn : n ≤ events.length) (k : Nat) :
    (events.take n).drop start ++ (events.drop n).take k =
      (events.take (min (n + k) events.length)).drop start := by
  have htake : events.take (min (n + k) events.length) = events.take (n + k) := by
    grind
  grind

end Slice

/-! ### The log of a job in the tables -/

section Tables

variable {db later : JobsDb π} {jobId : Nat}

theorem eventsOf_cases (db : JobsDb π) (jobId : Nat) : eventsOf db jobId = [] ∨
      ∃ record ∈ db, record.row.id = jobId ∧ eventsOf db jobId = record.events := by
  rw [eventsOf]
  grind

theorem JobsInv.eventsOf_eq (h : JobsInv db) {record : JobRecord π} (hrecord : record ∈ db)
    (hid : record.row.id = jobId) : eventsOf db jobId = record.events := by
  rw [eventsOf]
  cases hfind : db.find? fun record => decide (record.row.id = jobId) with
  | none =>
    grind
  | some found =>
    have hfound := List.find?_some hfind
    have hsame : found.row.id = record.row.id := (of_decide_eq_true hfound).trans hid.symm
    rw [h.eq_of_id (List.mem_of_find?_eq_some hfind) hrecord hsame]

theorem JobsInv.log (h : JobsInv db) (jobId : Nat) :
    LogInv (eventsOf db jobId) ∧ (eventsOf db jobId).length < 2 ^ 63 := by
  rcases eventsOf_cases db jobId with hnil | ⟨record, hrecord, -, heq⟩
  · rw [hnil]
    exact ⟨logInv_nil, by decide⟩
  · have hinv := h.records record hrecord
    rw [heq]
    refine ⟨hinv.log, Nat.lt_of_le_of_lt hinv.bounded (by decide)⟩

theorem Grows.eventsOf (hgrows : Grows db later) (hlater : JobsInv later) (jobId : Nat) :
    eventsOf db jobId <+: eventsOf later jobId := by
  rcases eventsOf_cases db jobId with hnil | ⟨record, hrecord, hid, heq⟩
  · rw [hnil]
    exact List.nil_prefix
  · obtain ⟨after, hafter, hextends⟩ := hgrows record hrecord
    rw [heq, hlater.eventsOf_eq hafter (hextends.id.trans hid)]
    exact hextends.events

end Tables

/-! ### The request of a stream -/

/-- What the request fixes for the whole stream. -/
structure SameRequest (old new : JobStream) : Prop where
  jobId : new.jobId = old.jobId
  follow : new.follow = old.follow
  deadline : new.deadline = old.deadline

theorem sameRequest_foldl (rows : List EventRow) (stream : JobStream) :
    SameRequest stream (rows.foldl JobStream.send stream) := by
  induction rows generalizing stream with
  | nil => exact ⟨rfl, rfl, rfl⟩
  | cons row rest ih =>
    have hrest := ih (stream.send row)
    exact ⟨hrest.jobId, hrest.follow, hrest.deadline⟩

theorem sameRequest_poll (stream : JobStream) (now : Int) (events : List EventRow) :
    SameRequest stream (stream.poll now events) := by
  have hsend := sameRequest_foldl (selectEvents stream.next events) stream
  rw [JobStream.poll]
  split_ifs
  · exact ⟨rfl, rfl, rfl⟩
  · dsimp only
    split_ifs
    · exact ⟨hsend.jobId, hsend.follow, hsend.deadline⟩
    · exact hsend

theorem sameRequest_cut (stream : JobStream) (sent : Nat) (events : List EventRow) :
    SameRequest stream (stream.cut sent events) := by
  have hsend := sameRequest_foldl ((selectEvents stream.next events).take sent) stream
  exact ⟨hsend.jobId, hsend.follow, hsend.deadline⟩

/-! ### The invariant of a stream -/

/-- The part of the log from `start` up to the cursor `n`. -/
abbrev slice (start : Nat) (s : StreamSystem π) (n : Nat) : List JobEvent :=
  ((s.log.take n).drop start).map (EventRow.message s.stream.jobId)

/-- The stream has delivered the slice from `start` up to its cursor. A
follow stream that has finished has delivered everything, and the log is
over. A stream that goes on has not met the terminal event, and one that
does not follow has not polled yet. -/
structure StreamInv (start : Nat) (s : StreamSystem π) : Prop where
  jobs : JobsInv s.db
  cursor : ∃ n : Nat, s.stream.next = n ∧ start ≤ n ∧
    (n = start ∨ n ≤ s.log.length) ∧ s.stream.delivered = slice start s n
  ended : s.stream.follow = true → s.stream.outcome = some .finished →
    (∃ event, s.log.getLast? = some event ∧ event.terminal = true) ∧
    s.stream.next = s.log.length ∧ start < s.log.length
  running : s.stream.outcome = none → ∀ event ∈ s.stream.delivered, event.terminal = false
  once : s.stream.follow = false → s.stream.outcome = none → s.stream.next = start

namespace StreamInv

variable {start : Nat} {s : StreamSystem π}

section

variable (h : StreamInv start s)
include h

/-- A batch of `k` events moves the cursor along the log. -/
theorem send_batch (k : Nat) : ∃ n m : Nat, s.stream.next = n ∧ start ≤ n ∧
      (m = start ∨ m ≤ s.log.length) ∧
      m = max n (min (n + k) s.log.length) ∧
      slice start s m = s.stream.delivered ++
        ((s.log.drop n).take k).map (EventRow.message s.stream.jobId) ∧
      ((s.log.drop n).take k).foldl JobStream.send s.stream = { s.stream with
        next := (m : Int)
        delivered := slice start s m } := by
  obtain ⟨n, hnext, hstart, hcursor, hdelivered⟩ := h.cursor
  obtain ⟨hlog, hbound⟩ := h.jobs.log s.stream.jobId
  by_cases hn : n ≤ s.log.length
  · have hslice : slice start s (min (n + k) s.log.length) = s.stream.delivered ++
          ((s.log.drop n).take k).map (EventRow.message s.stream.jobId) := by
      rw [hdelivered, ← List.map_append, slice_append hstart hn]
    refine ⟨n, min (n + k) s.log.length, hnext, hstart, Or.inr (by omega),
      by omega, hslice, ?_⟩
    rw [foldl_send s.stream hlog hbound hnext hn k, hslice]
  · -- the request starts behind the end of the log
    have hnone : s.log.drop n = [] := List.drop_eq_nil_of_le (by omega)
    refine ⟨n, n, hnext, hstart, hcursor, by omega, ?_, ?_⟩
    · grind
    · rw [hnone, List.take_nil, List.foldl_nil, ← hdelivered, ← hnext]

/-- A transaction on the jobs leaves the slice alone. -/
theorem job {db : JobsDb π} (hdb : JobsInv db) (hgrows : Grows s.db db) :
    StreamInv start { s with db } := by
  have hlonger : s.log <+: eventsOf db s.stream.jobId := hgrows.eventsOf hdb _
  obtain ⟨n, hnext, hstart, hcursor, hdelivered⟩ := h.cursor
  refine ⟨hdb, ⟨n, hnext, hstart, ?_, ?_⟩, ?_, ?_, ?_⟩
  · exact hcursor.imp id fun hn => hn.trans hlonger.length_le
  · rw [hdelivered]
    rcases hcursor with rfl | hn
    · -- nothing was delivered yet
      grind
    · obtain ⟨rest, hrest⟩ := hlonger
      grind
  · intro hfollow hfinished
    obtain ⟨⟨event, hlast, hterminal⟩, hend⟩ := h.ended hfollow hfinished
    have hsame : eventsOf db s.stream.jobId = s.log :=
      (hdb.log s.stream.jobId).1.eq_of_longer hlonger hlast hterminal
    grind
  · exact h.running
  · exact h.once

/-- An error ends the stream where it is. -/
theorem fail {outcome : StreamEnd} (hne : outcome ≠ .finished) :
    StreamInv start { s with stream := { s.stream with outcome := some outcome } } :=
  ⟨h.jobs, h.cursor, fun _ hfinished => absurd (Option.some.inj hfinished) hne, nofun, nofun⟩

/-- Part of a batch, and then the client is gone. -/
theorem cut (sent : Nat) :
    StreamInv start { s with stream := s.stream.cut sent s.log } := by
  obtain ⟨n, m, hnext, hstart, hcursor, hm, -, hsend⟩ := h.send_batch (min sent streamBatch)
  have hrows : (selectEvents s.stream.next s.log).take sent =
      (s.log.drop n).take (min sent streamBatch) := by
    rw [hnext, selectEvents_eq (h.jobs.log _).1, List.take_take]
  have hcut : s.stream.cut sent s.log = { s.stream with
      next := (m : Int)
      delivered := slice start s m
      outcome := some .disconnected } := by
    rw [JobStream.cut, hrows, hsend]
  rw [hcut]
  exact ⟨h.jobs, ⟨m, rfl, by omega, hcursor, rfl⟩, nofun, nofun, nofun⟩

theorem logInv : LogInv s.log :=
  (h.jobs.log s.stream.jobId).1

/-- A batch with a terminal event reaches the end of the log. -/
theorem terminal_batch {n : Nat}
    (hterminal : ((s.log.drop n).take streamBatch).any EventRow.terminal = true) :
    (∃ event, s.log.getLast? = some event ∧ event.terminal = true) ∧
      n < s.log.length ∧ s.log.length ≤ n + streamBatch := by
  obtain ⟨event, hevent, hterminal⟩ := List.any_eq_true.1 hterminal
  obtain ⟨j, hj⟩ := List.mem_iff_getElem?.1 hevent
  have hlt : j < streamBatch := by
    grind
  rw [List.getElem?_take_of_lt hlt, List.getElem?_drop] at hj
  have hindex := h.logInv.terminal_index hj hterminal
  grind

/-- A turn of the loop within the lifetime. -/
theorem poll_eq {now : Int} (hnow : ¬ s.stream.deadline < now) :
    ∃ n m : Nat, s.stream.next = n ∧ start ≤ n ∧ (m = start ∨ m ≤ s.log.length) ∧
      m = max n (min (n + streamBatch) s.log.length) ∧
      slice start s m = s.stream.delivered ++
        ((s.log.drop n).take streamBatch).map (EventRow.message s.stream.jobId) ∧
      s.stream.poll now s.log = { s.stream with
        next := (m : Int)
        delivered := slice start s m
        outcome :=
          if ((s.log.drop n).take streamBatch).any EventRow.terminal ||
              !s.stream.follow then some .finished
          else s.stream.outcome } := by
  obtain ⟨n, m, hnext, hstart, hcursor, hm, hslice, hsend⟩ := h.send_batch streamBatch
  refine ⟨n, m, hnext, hstart, hcursor, hm, hslice, ?_⟩
  rw [JobStream.poll, if_neg hnow, hnext, selectEvents_eq h.logInv]
  grind

end

theorem poll_congr {stream : JobStream} {now now' : Int} {events : List EventRow}
    (hnow : ¬ stream.deadline < now) (hnow' : ¬ stream.deadline < now') :
    stream.poll now events = stream.poll now' events := by
  rw [JobStream.poll, JobStream.poll, if_neg hnow, if_neg hnow']

theorem poll (h : StreamInv start s) (hrunning : s.stream.outcome = none) (now : Int) :
    StreamInv start { s with stream := s.stream.poll now s.log } := by
  by_cases hlate : s.stream.deadline < now
  · rw [JobStream.poll, if_pos hlate]
    exact h.fail nofun
  · obtain ⟨n, m, hnext, hstart, hcursor, hm, hslice, hpoll⟩ := h.poll_eq hlate
    rw [hpoll, hrunning]
    by_cases hterminal :
        ((s.log.drop n).take streamBatch).any EventRow.terminal = true
    · obtain ⟨hlast, hlt, hle⟩ := h.terminal_batch hterminal
      have hend : (m : Int) = (s.log.length : Int) := by omega
      have hbegin : start < s.log.length := by omega
      rw [hterminal, Bool.true_or, if_pos rfl]
      exact ⟨h.jobs, ⟨m, rfl, by omega, hcursor, rfl⟩, fun _ _ => ⟨hlast, hend, hbegin⟩, nofun,
        nofun⟩
    · have hopen := Bool.eq_false_iff.2 hterminal
      rw [hopen, Bool.false_or]
      refine ⟨h.jobs, ⟨m, rfl, by omega, hcursor, rfl⟩, ?_, ?_, ?_⟩
      · grind
      · -- neither what was delivered before nor the batch is terminal
        intro _ event hevent
        have hmem : event ∈ slice start s m := hevent
        rw [hslice] at hmem
        rcases List.mem_append.1 hmem with hold | hnew
        · exact h.running hrunning event hold
        · obtain ⟨row, hrow, rfl⟩ := List.mem_map.1 hnew
          exact Bool.eq_false_iff.2 (List.any_eq_false.1 hopen row hrow)
      · grind

/-- The numbers of the delivered events have no gap. -/
theorem sequences (h : StreamInv start s) : s.stream.delivered.map JobEvent.sequence =
      List.range' start s.stream.delivered.length := by
  obtain ⟨n, -, -, -, hdelivered⟩ := h.cursor
  have hnumbers : s.log.map (Int.toNat ∘ EventRow.sequence) =
      List.range s.log.length := by
    rw [← List.map_map, h.logInv.sequences, List.map_map]
    exact List.map_id _
  have hslice : (slice start s n).map JobEvent.sequence =
      ((s.log.map (Int.toNat ∘ EventRow.sequence)).take n).drop start := by
    rw [slice, List.map_map, ← List.map_take, ← List.map_drop]
    rfl
  rw [hdelivered, hslice, hnumbers, List.take_range, List.range_eq_range', List.drop_range',
    List.length_map, List.length_drop, List.length_take, Nat.zero_add, Nat.mul_one]

theorem step [DecidableEq π] {jsonb : π → π} (h : StreamInv start s) {l : StreamLabel π}
    {s' : StreamSystem π} (hstep : (streamSystem jsonb).step s l = some s') :
    StreamInv start s' ∧ Grows s.db s'.db ∧ SameRequest s.stream s'.stream := by
  cases l with
  | job label =>
    obtain ⟨db, hdb, rfl⟩ := Option.map_eq_some_iff.1 hstep
    obtain ⟨hinv, hgrows⟩ := (performJob_keeps jsonb h.jobs label).of_ok (eq_ok_of_toOption hdb)
    exact ⟨h.job hinv hgrows, hgrows, ⟨rfl, rfl, rfl⟩⟩
  | poll now =>
    simp only [streamSystem] at hstep
    split_ifs at hstep with hrunning
    cases hstep
    exact ⟨h.poll hrunning now, .refl _, sameRequest_poll _ _ _⟩
  | fail code message =>
    simp only [streamSystem] at hstep
    split_ifs at hstep with hrunning
    cases hstep
    exact ⟨h.fail nofun, .refl _, ⟨rfl, rfl, rfl⟩⟩
  | disconnect sent =>
    simp only [streamSystem] at hstep
    split_ifs at hstep with hrunning
    cases hstep
    exact ⟨h.cut sent, .refl _, sameRequest_cut _ _ _⟩

/-- What is delivered is the beginning of what is asked for. -/
theorem delivered_prefix (h : StreamInv start s) : s.stream.delivered <+:
      (s.log.drop start).map (EventRow.message s.stream.jobId) := by
  obtain ⟨n, -, -, -, hdelivered⟩ := h.cursor
  rw [hdelivered, slice]
  refine List.IsPrefix.map _ ?_
  conv_rhs => rw [← List.take_append_drop n s.log, List.drop_append]
  exact List.prefix_append _ _

/-- A follow stream that has finished has delivered it all. -/
theorem delivered_all (h : StreamInv start s) (hfollow : s.stream.follow = true)
    (hfinished : s.stream.outcome = some .finished) :
    s.stream.delivered = (s.log.drop start).map (EventRow.message s.stream.jobId) ∧
      ∃ last, s.stream.delivered.getLast? = some last ∧ last.terminal = true := by
  obtain ⟨⟨event, hlast, hterminal⟩, hend, hbegin⟩ := h.ended hfollow hfinished
  obtain ⟨n, hnext, -, -, hdelivered⟩ := h.cursor
  have hall : s.stream.delivered =
      (s.log.drop start).map (EventRow.message s.stream.jobId) := by
    rw [hdelivered, slice, List.take_of_length_le (by omega)]
  refine ⟨hall, event.message s.stream.jobId, ?_, hterminal⟩
  grind

/-- A stream that goes on has not reached the terminal event. -/
theorem cursor_lt (h : StreamInv start s) (hrunning : s.stream.outcome = none)
    {event : EventRow} (hlast : s.log.getLast? = some event)
    (hterminal : event.terminal = true) (hstart : start < s.log.length) :
    ∃ n : Nat, s.stream.next = n ∧ n < s.log.length := by
  obtain ⟨n, hnext, -, hcursor, hdelivered⟩ := h.cursor
  refine ⟨n, hnext, ?_⟩
  by_contra hge
  have hall : s.stream.delivered =
      (s.log.drop start).map (EventRow.message s.stream.jobId) := by
    rw [hdelivered, slice, List.take_of_length_le (by omega)]
  have hmem : event ∈ s.log.drop start := by
    refine List.mem_of_getLast? ?_
    rw [List.getLast?_drop, if_neg (by omega), hlast]
  have hopen := h.running hrunning (event.message s.stream.jobId)
    (by rw [hall]; exact List.mem_map_of_mem hmem)
  rw [show (event.message s.stream.jobId).terminal = event.terminal from rfl, hterminal] at hopen
  cases hopen

/-- A follow stream over a finished job ends, after enough turns of its
loop within the lifetime. -/
theorem finishes [DecidableEq π] (jsonb : π → π) (r : Nat) (h : StreamInv start s)
    (hrunning : s.stream.outcome = none) (hfollow : s.stream.follow = true)
    {event : EventRow} (hlast : s.log.getLast? = some event)
    (hterminal : event.terminal = true) (hstart : start < s.log.length)
    (hr : (s.log.length : Int) - s.stream.next ≤ r) :
    ∃ k, ∀ times : List Int, times.length = k → (∀ now ∈ times, now ≤ s.stream.deadline) →
      ∃ s', (streamSystem jsonb).run (fun _ _ => true) s (times.map .poll) = some s' ∧
        s'.stream.outcome = some .finished := by
  -- each turn that does not end the stream shortens what is left to read
  induction r generalizing s with
  | zero =>
    obtain ⟨n, hnext, hlt⟩ := h.cursor_lt hrunning hlast hterminal hstart
    omega
  | succ r ih =>
    obtain ⟨n0, hnext0, hlt⟩ := h.cursor_lt hrunning hlast hterminal hstart
    obtain ⟨n, m, hnext, -, -, hm, -, hpoll⟩ := h.poll_eq (lt_irrefl s.stream.deadline)
    have hsame : n0 = n := by omega
    have hturn : ∀ now ≤ s.stream.deadline, (streamSystem jsonb).step s (.poll now) =
        some { s with stream := s.stream.poll s.stream.deadline s.log } := by
      intro now hnow
      rw [← poll_congr (not_lt.2 hnow) (lt_irrefl s.stream.deadline)]
      exact if_pos hrunning
    have hinv := h.poll hrunning s.stream.deadline
    by_cases hend : (s.stream.poll s.stream.deadline s.log).outcome = none
    · have hleft : (s.log.length : Int) - m ≤ r := by
        have hlt' : n < m := by
          have hbatch : 0 < streamBatch := by decide
          omega
        omega
      rw [hpoll] at hinv hend hturn
      obtain ⟨k, hk⟩ := ih hinv hend hfollow hlast hstart hleft
      refine ⟨k + 1, fun times hlength hlive => ?_⟩
      obtain ⟨now, rest, rfl⟩ := List.exists_cons_of_length_eq_add_one hlength
      obtain ⟨s', hrun, hfinished⟩ := hk rest (by simpa using hlength)
        fun t ht => hlive t (List.mem_cons_of_mem _ ht)
      refine ⟨s', ?_, hfinished⟩
      rw [List.map_cons, Machine.run, if_pos rfl, hturn now (hlive now List.mem_cons_self)]
      exact hrun
    · have hfinished : (s.stream.poll s.stream.deadline s.log).outcome =
          some .finished := by
        rw [hpoll, hrunning] at hend ⊢
        split_ifs at hend ⊢
        · rfl
        · exact absurd rfl hend
      refine ⟨1, fun times hlength hlive => ?_⟩
      obtain ⟨now, rfl⟩ := List.length_eq_one_iff.1 hlength
      refine ⟨{ s with stream := s.stream.poll s.stream.deadline s.log }, ?_,
        hfinished⟩
      rw [List.map_singleton, Machine.run, if_pos rfl, hturn now (hlive now List.mem_cons_self)]
      rfl

/-- The one turn of a stream that does not follow delivers all that was
stored exactly when it fits into a batch and the lifetime is not over. -/
theorem once_iff (h : StreamInv start s) (hrunning : s.stream.outcome = none)
    (hfollow : s.stream.follow = false) {stored : List EventRow}
    (hstored : stored <+: s.log) (now : Int) :
    (∀ event ∈ stored.drop start,
      event.message s.stream.jobId ∈ (s.stream.poll now s.log).delivered) ↔
    stored.drop start = [] ∨
      ((stored.drop start).length ≤ streamBatch ∧ now ≤ s.stream.deadline) := by
  have hlength := hstored.length_le
  have hfirst := h.once hfollow hrunning
  have hnone : s.stream.delivered = [] := by
    obtain ⟨n, hnext, -, -, hdelivered⟩ := h.cursor
    obtain rfl : n = start := by omega
    rw [hdelivered, slice, List.drop_eq_nil_of_le (List.length_take_le _ _), List.map_nil]
  by_cases hlate : s.stream.deadline < now
  · -- the lifetime error comes before any event
    rw [JobStream.poll, if_pos hlate]
    constructor
    · intro hall
      left
      refine List.eq_nil_iff_forall_not_mem.2 fun event hevent => ?_
      have hmem := hall event hevent
      rw [show JobStream.delivered { s.stream with outcome := _ } = s.stream.delivered from rfl,
        hnone] at hmem
      cases hmem
    · rintro (hnil | ⟨-, hnow⟩)
      · rw [hnil]
        exact nofun
      · omega
  · obtain ⟨n, m, hnext, -, -, hm, -, hpoll⟩ := h.poll_eq hlate
    obtain rfl : n = start := by omega
    constructor
    · intro hall
      by_contra hcondition
      push Not at hcondition
      obtain ⟨-, hmany⟩ := hcondition
      have hlong : streamBatch < (stored.drop n).length := by
        by_contra hfits
        have := hmany (by omega)
        omega
      -- the event right behind the batch is not among those delivered
      obtain ⟨event, hget⟩ : ∃ event, (stored.drop n)[streamBatch]? = some event :=
        ⟨_, List.getElem?_eq_getElem hlong⟩
      have hnumber : event.sequence = (n + streamBatch : Nat) := by
        rw [List.getElem?_drop] at hget
        obtain ⟨rest, hrest⟩ := hstored
        refine (h.logInv.sequence_eq ?_).1
        rw [← hrest, List.getElem?_append_left (List.getElem?_eq_some_iff.1 hget).1, hget]
      have hmem : (event.message s.stream.jobId).sequence ∈
          (s.stream.poll now s.log).delivered.map JobEvent.sequence :=
        List.mem_map_of_mem (hall event (List.mem_of_getElem? hget))
      have hrange : (s.stream.poll now s.log).delivered.map JobEvent.sequence =
          List.range' n (s.stream.poll now s.log).delivered.length :=
        (h.poll hrunning now).sequences
      have hcount : (s.stream.poll now s.log).delivered.length ≤ streamBatch := by
        rw [hpoll]
        show (slice n s m).length ≤ streamBatch
        rw [slice, List.length_map, List.length_drop, List.length_take]
        omega
      rw [hrange, List.mem_range'_1] at hmem
      have hmessage : (event.message s.stream.jobId).sequence = n + streamBatch := by
        rw [EventRow.message, hnumber, Int.toNat_natCast]
      omega
    · rintro (hnil | ⟨hfits, -⟩)
      · rw [hnil]
        exact nofun
      · intro event hevent
        rw [hpoll]
        refine List.mem_map_of_mem ?_
        rw [List.length_drop] at hfits
        have hlonger : stored <+: s.log.take m := by
          rw [List.prefix_iff_eq_take.1 hstored]
          exact List.take_prefix_take_left (by omega)
        obtain ⟨rest, hrest⟩ := hlonger
        rw [← hrest, List.drop_append]
        exact List.mem_append_left _ hevent

end StreamInv

/-! ### Every run -/

section Runs

variable [DecidableEq π] {jsonb : π → π} {db : JobsDb π} {request : StreamJobRequest}
  {stream : JobStream} {s : StreamSystem π}

/-- The states that a stream reaches among the transactions. -/
abbrev StreamReaches (jsonb : π → π) : StreamSystem π → StreamSystem π → Prop :=
  (streamSystem jsonb).Reaches fun _ _ => True

omit [DecidableEq π] in
theorem openStream_spec (hdb : JobsInv db) (hopen : openStream db request = .ok stream) :
    StreamInv request.fromSequence ⟨db, stream⟩ ∧ stream.jobId = request.jobId ∧
      stream.follow = request.follow := by
  simp only [openStream] at hopen
  obtain ⟨_, -, hopen⟩ := bind_eq_ok.1 hopen
  split at hopen
  · cases hopen
  · cases hopen
    refine ⟨⟨hdb, ⟨request.fromSequence, rfl, le_rfl, Or.inl rfl, ?_⟩, nofun, nofun,
      fun _ _ => rfl⟩, rfl, rfl⟩
    rw [slice, List.drop_eq_nil_of_le (List.length_take_le _ _)]
    rfl

theorem StreamReaches.inv {start : Nat} {s0 : StreamSystem π} (h : StreamReaches jsonb s0 s)
    (h0 : StreamInv start s0) :
    StreamInv start s ∧ Grows s0.db s.db ∧ SameRequest s0.stream s.stream := by
  refine h.invariant (I := fun s => StreamInv start s ∧ Grows s0.db s.db ∧
    SameRequest s0.stream s.stream) ⟨h0, .refl _, ⟨rfl, rfl, rfl⟩⟩ ?_
  rintro s l s' ⟨hs, hgrows, hsame⟩ - hstep
  obtain ⟨hs', hgrows', hsame'⟩ := hs.step hstep
  exact ⟨hs', hgrows.trans hgrows', hsame'.jobId.trans hsame.jobId,
    hsame'.follow.trans hsame.follow, hsame'.deadline.trans hsame.deadline⟩

/-- The stored events of a job from a sequence on. -/
def storedFrom (db : JobsDb π) (jobId start : Nat) : List EventRow :=
  (eventsOf db jobId).filter fun event => decide ((start : Int) ≤ event.sequence)

/-- What a stream delivers of the log. A follow stream delivers, in order
and without a gap, a first part of the events from the requested sequence
on; when it finishes it has delivered all of them and the last one is
terminal; and it does finish, after enough turns within its lifetime, if
the job ends behind the requested sequence. A stream that does not follow
delivers what was stored at the request if and only if nothing was stored,
or at most 128 events were and its turn is within the lifetime. -/
theorem stream_job_delivers (jsonb : π → π) (db : JobsDb π) (hdb : JobsReach jsonb [] db)
    (request : StreamJobRequest) (stream : JobStream)
    (hopen : openStream db request = .ok stream) (s : StreamSystem π)
    (hs : StreamReaches jsonb ⟨db, stream⟩ s) :
    (request.follow = true → s.stream.delivered <+:
        (storedFrom s.db request.jobId request.fromSequence).map (EventRow.message request.jobId) ∧
      s.stream.delivered.map JobEvent.sequence =
        List.range' request.fromSequence s.stream.delivered.length ∧
      (s.stream.outcome = some .finished →
        s.stream.delivered = (storedFrom s.db request.jobId request.fromSequence).map
            (EventRow.message request.jobId) ∧
          ∃ last, s.stream.delivered.getLast? = some last ∧ last.terminal = true) ∧
      (s.stream.outcome = none →
        (∃ event ∈ storedFrom s.db request.jobId request.fromSequence, event.terminal = true) →
          ∃ k, ∀ times : List Int, times.length = k → (∀ now ∈ times, now ≤ stream.deadline) →
            ∃ s', (streamSystem jsonb).run (fun _ _ => true) s (times.map .poll) = some s' ∧
              s'.stream.outcome = some .finished)) ∧
    (request.follow = false → s.stream.outcome = none →
      ∀ now s', (streamSystem jsonb).step s (.poll now) = some s' →
        ((∀ event ∈ storedFrom db request.jobId request.fromSequence,
            event.message request.jobId ∈ s'.stream.delivered) ↔
          storedFrom db request.jobId request.fromSequence = [] ∨
            ((storedFrom db request.jobId request.fromSequence).length ≤ 128 ∧
              now ≤ stream.deadline))) := by
  have hjobs : JobsInv db := (hdb.grows jobsInv_nil).1
  obtain ⟨h0, hjobId, hfollow⟩ := openStream_spec hjobs hopen
  obtain ⟨h, hgrows, hsame⟩ := hs.inv h0
  have hid : s.stream.jobId = request.jobId := hsame.jobId.trans hjobId
  have hstored : storedFrom s.db request.jobId request.fromSequence =
      s.log.drop request.fromSequence := by
    rw [storedFrom, ← hid, h.logInv.filter_eq_drop]
  obtain ⟨n, hnext, -, -, -⟩ := h.cursor
  constructor
  · intro hrequest
    have hf : s.stream.follow = true := (hsame.follow.trans hfollow).trans hrequest
    rw [hstored, ← hid]
    refine ⟨h.delivered_prefix, h.sequences, h.delivered_all hf, fun hrunning hover => ?_⟩
    obtain ⟨event, hevent, hterminal⟩ := hover
    -- the terminal event is the last of the log, so the log has stopped to grow
    obtain ⟨i, hi⟩ := List.mem_iff_getElem?.1 hevent
    rw [List.getElem?_drop] at hi
    have hindex := h.logInv.terminal_index hi hterminal
    have hlast : s.log.getLast? = some event := by
      rw [List.getLast?_eq_getElem?, ← hindex]
      exact hi
    obtain ⟨k, hk⟩ := h.finishes jsonb s.log.length hrunning hf hlast hterminal
      (by omega) (by omega)
    refine ⟨k, fun times hlength hlive => hk times hlength fun now hnow => ?_⟩
    rw [hsame.deadline]
    exact hlive now hnow
  · intro hrequest hrunning now s' hstep
    have hf : s.stream.follow = false := (hsame.follow.trans hfollow).trans hrequest
    have hs' : { s with stream := s.stream.poll now s.log } = s' :=
      Option.some.inj ((if_pos hrunning).symm.trans hstep)
    have hfirst : storedFrom db request.jobId request.fromSequence =
        (eventsOf db s.stream.jobId).drop request.fromSequence := by
      rw [storedFrom, ← hid, (hjobs.log s.stream.jobId).1.filter_eq_drop]
    rw [hfirst, ← hid, ← hs']
    have honce := h.once_iff hrunning hf (hgrows.eventsOf h.jobs s.stream.jobId) now
    rw [hsame.deadline] at honce
    exact honce

end Runs

/-! ### Streams over a short and over a long log -/

/-- A stream over the job 5 of `sampleJobLabels` from its event 1 on. -/
def sampleStream (follow : Bool) : JobStream :=
  ⟨5, follow, 1200 * second, 1, [], none⟩

/-- The follow stream polls once and meets the terminal event. The other
one delivers the same two events. -/
theorem stream_job_delivers_sample : ∃ (db : JobsDb Nat) (s s' : StreamSystem Nat),
      openStream db ⟨5, 1, true⟩ = .ok (sampleStream true) ∧
      openStream db ⟨5, 1, false⟩ = .ok (sampleStream false) ∧
      StreamReaches id ⟨db, sampleStream true⟩ s ∧
      s.stream.delivered.map JobEvent.sequence = [1, 2] ∧
      s.stream.delivered = (storedFrom s.db 5 1).map (EventRow.message 5) ∧
      (streamSystem id).step ⟨db, sampleStream false⟩ (.poll (1000 * second)) = some s' ∧
      ∀ event ∈ storedFrom db 5 1, event.message 5 ∈ s'.stream.delivered := by
  have hrun : ((jobTransactions id).run (fun _ _ => true) ([] : JobsDb Nat) sampleJobLabels).map
      (fun db => decide ((openStream db ⟨5, 1, true⟩).toOption = some (sampleStream true) ∧
        (openStream db ⟨5, 1, false⟩).toOption = some (sampleStream false) ∧
        ((sampleStream true).poll (1000 * second) (eventsOf db 5)).delivered.map
          JobEvent.sequence = [1, 2] ∧
        ((sampleStream true).poll (1000 * second) (eventsOf db 5)).outcome = some .finished ∧
        (storedFrom db 5 1).length = 2)) = some true := by decide +kernel
  obtain ⟨db, hreach, hvalues⟩ := Machine.exists_of_view hrun
  obtain ⟨hopen, honce, hsequences, hfinished, hcount⟩ := of_decide_eq_true hvalues
  have hok := eq_ok_of_toOption hopen
  have hokOnce := eq_ok_of_toOption honce
  have hs : StreamReaches id ⟨db, sampleStream true⟩
      ⟨db, (sampleStream true).poll (1000 * second) (eventsOf db 5)⟩ :=
    Machine.Reaches.refl.tail (l := .poll (1000 * second)) trivial rfl
  have hfollow := (stream_job_delivers id db hreach ⟨5, 1, true⟩ _ hok _ hs).1 rfl
  have hplain := (stream_job_delivers id db hreach ⟨5, 1, false⟩ _ hokOnce _ .refl).2 rfl rfl
    (1000 * second) _ rfl
  refine ⟨db, _, _, hok, hokOnce, hs, hsequences, (hfollow.2.2.1 hfinished).1, rfl, ?_⟩
  exact hplain.2 (Or.inr ⟨by rw [hcount]; decide, by decide⟩)

/-- The job of `sampleJobLabels`, with 128 running events. -/
def longJobLabels : List (JobLabel Nat) :=
  [.start 3 sampleStart 5 0 (900 * second), .claim (fun _ => false) 7 second 20,
    .acknowledge (2 * second) 7 5 20] ++
  (List.range 128).map fun i => .event (3 * second) 7 (sampleEvent (i + 1) 4 false)

/-- A log of 129 events is read without following, well within the
lifetime. Its last event is not delivered. -/
theorem stream_without_follow_truncates :
    ∃ (db : JobsDb Nat) (stream : JobStream) (s' : StreamSystem Nat),
      JobsReach id [] db ∧ openStream db ⟨5, 0, false⟩ = .ok stream ∧
      (streamSystem id).step ⟨db, stream⟩ (.poll (4 * second)) = some s' ∧
      ¬ ∀ event ∈ storedFrom db 5 0, event.message 5 ∈ s'.stream.delivered := by
  have hrun : ((jobTransactions id).run (fun _ _ => true) ([] : JobsDb Nat) longJobLabels).map
      (fun db => ((openStream db ⟨5, 0, false⟩).toOption, (storedFrom db 5 0).length)) =
      some (some ⟨5, false, 1200 * second, 0, [], none⟩, 129) := by decide +kernel
  obtain ⟨db, hreach, hvalues⟩ := Machine.exists_of_view hrun
  obtain ⟨hopen, hcount⟩ := Prod.mk.inj hvalues
  have hjobs : JobsInv db := (JobsReach.grows hreach jobsInv_nil).1
  have hok := eq_ok_of_toOption hopen
  obtain ⟨h, -, -⟩ := openStream_spec hjobs hok
  refine ⟨db, _, _, hreach, hok, rfl, fun hall => ?_⟩
  have hstored : storedFrom db 5 0 = (eventsOf db 5).drop 0 := by
    rw [storedFrom, (hjobs.log 5).1.filter_eq_drop]
  rw [hstored] at hall hcount
  have hcondition := (h.once_iff rfl rfl List.prefix_rfl (4 * second)).1 hall
  rcases hcondition with hnil | ⟨hfits, -⟩
  · rw [hnil] at hcount
    cases hcount
  · rw [show (⟨db, _⟩ : StreamSystem Nat).log = eventsOf db 5 from rfl, hcount]
      at hfits
    exact absurd hfits (by decide)

end Proofs

end Centrald
