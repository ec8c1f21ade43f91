import CatalogSync.Consumer.Lines
import CatalogSync.Proofs.Collections
import Mathlib.Data.List.DropRight
import Mathlib.Data.List.Forall2

/-! What polls bring of the lines of a text.

What is still to come of a source is a list of answers, each line's behind those of the lines before it. A poll takes
the first of them, and there is none for it only at the end of the text. So it does not matter how many blank lines a
poll passes over, nor what is called between the polls. -/

namespace CatalogSync

/-! ### White space around a text -/

/-- `text` is what is left of `s` without the white space at both ends. -/
def Text.Trims (s text : String) : Prop :=
  ∃ before after : List Char, s.toList = before ++ text.toList ++ after ∧ (∀ c ∈ before ++ after, isBlank c = true) ∧
    (∀ c ∈ text.toList.head?, isBlank c = false) ∧ ∀ c ∈ text.toList.getLast?, isBlank c = false

theorem Text.toList_trim (s : String) : (trim s).toList = (s.toList.dropWhile isBlank).rdropWhile isBlank :=
  String.toList_ofList

theorem Text.trims_trim (s : String) : Trims s (trim s) := by
  have hparts : s.toList = s.toList.takeWhile isBlank ++ (trim s).toList ++
      (s.toList.dropWhile isBlank).rtakeWhile isBlank := by
    rw [toList_trim, List.append_assoc, List.rdropWhile_append_rtakeWhile, List.takeWhile_append_dropWhile]
  refine ⟨_, _, hparts, fun c hc => ?_, fun c hc => ?_, fun c hc => ?_⟩
  · rcases List.mem_append.mp hc with hc | hc
    · exact List.mem_takeWhile_imp hc
    · exact List.mem_rtakeWhile_imp hc
  · rw [toList_trim] at hc
    obtain ⟨after, hafter⟩ := List.rdropWhile_prefix isBlank (s.toList.dropWhile isBlank)
    have hhead := List.head?_dropWhile_not isBlank s.toList
    rw [← hafter, List.head?_append, hc] at hhead
    simpa using hhead
  · rw [toList_trim] at hc
    obtain ⟨hne, rfl⟩ := List.mem_getLast?_eq_getLast hc
    simpa using List.rdropWhile_last_not _ _ hne

theorem Text.Trims.isBlank_of_mem {s : String} (h : Trims s "") {c : Char} (hc : c ∈ s.toList) : isBlank c = true := by
  obtain ⟨before, after, hparts, hblank, -⟩ := h
  exact hblank c (by simpa [hparts] using hc)

/-! ### Sessions with a source -/

/-- A call that has no answer yet. -/
inductive SourceRequest
  | subscribe (topics : List String)
  | poll (timeout : Duration)
  | commit (message : Message)
  | close

def SourceRequest.isPoll : SourceRequest → Bool
  | poll _ => true
  | _ => false

def Source.perform {m : Type → Type} [Monad m] (source : Source m) : SourceRequest → m SourceCall
  | .subscribe topics => return .subscribe topics (← source.subscribe topics)
  | .poll timeout => return .poll timeout (← source.poll timeout)
  | .commit message => return .commit message (← source.commit message)
  | .close => return .close (← source.close)

/-- What a poll answers. -/
abbrev Polled := Except ConsumerError (Option Message)

def SourceCall.polled? : SourceCall → Option Polled
  | poll _ answer => some answer
  | _ => none

/-! ### The lines of a text -/

namespace LineSource

/-- The bytes are lines that end and, behind the last line end, a rest. -/
structure Splits (bytes : List UInt8) (closed : List (List UInt8)) (rest : List UInt8) : Prop where
  bytes_eq : bytes = closed.flatMap (· ++ [lineEnd]) ++ rest
  closed : ∀ line ∈ closed, lineEnd ∉ line
  rest : lineEnd ∉ rest

variable {b : UInt8} {bytes line rest : List UInt8} {closed : List (List UInt8)}

theorem Splits.ended (h : Splits bytes closed rest) : Splits (lineEnd :: bytes) ([] :: closed) rest :=
  ⟨by simp [h.bytes_eq], by simpa using h.closed, h.rest⟩

theorem Splits.longer_rest (h : Splits bytes [] rest) (hb : b ≠ lineEnd) : Splits (b :: bytes) [] (b :: rest) :=
  ⟨by simpa using h.bytes_eq, h.closed, by simpa [hb.symm] using h.rest⟩

theorem Splits.longer_line (h : Splits bytes (line :: closed) rest) (hb : b ≠ lineEnd) :
    Splits (b :: bytes) ((b :: line) :: closed) rest := by
  obtain ⟨hline, hclosed⟩ := List.forall_mem_cons.mp h.closed
  exact ⟨by simp [h.bytes_eq], List.forall_mem_cons.mpr ⟨by simpa [hb.symm] using hline, hclosed⟩, h.rest⟩

theorem splits_split (bytes : List UInt8) : Splits bytes (split bytes).1 (split bytes).2 := by
  induction bytes with
  | nil => exact ⟨rfl, by simp [split], by simp [split]⟩
  | cons b bytes ih =>
    rcases hsplit : split bytes with ⟨closed, rest⟩
    rw [hsplit] at ih
    by_cases hb : b = lineEnd
    · have hcons : split (b :: bytes) = ([] :: closed, rest) := by simp [split, hsplit, hb]
      rw [hcons, hb]
      exact ih.ended
    · cases closed with
      | nil =>
        have hcons : split (b :: bytes) = ([], b :: rest) := by simp [split, hsplit, hb]
        rw [hcons]
        exact ih.longer_rest hb
      | cons line closed =>
        have hcons : split (b :: bytes) = ((b :: line) :: closed, rest) := by simp [split, hsplit, hb]
        rw [hcons]
        exact ih.longer_line hb

theorem linesOf_none (bytes : List UInt8) :
    linesOf bytes none = (split bytes).1 ++ if (split bytes).2 = [] then [] else [(split bytes).2] := by
  by_cases hrest : (split bytes).2 = []
  · simp [linesOf, hrest]
  · simp [linesOf, hrest]

end LineSource

/-! ### What a line is worth -/

/-- What polls answer for a line with this number. -/
inductive Brings (topic : String) (number : Nat) (line : List UInt8) : List Polled → Prop
  | nothing {s : String} : Text.bytes s = line → (∀ c ∈ s.toList, Text.isBlank c = true) → Brings topic number line []
  | message {s text : String} : Text.bytes s = line → Text.Trims s text → text ≠ "" →
      Brings topic number line [.ok (some { topic, offset := number, payload := Text.bytes text })]
  | failure : (∀ s, Text.bytes s ≠ line) →
      Brings topic number line [.error (.io "stream did not contain valid UTF-8")]

def Line.answers (topic : String) (number : Nat) : Line → List Polled
  | blank => []
  | payload text => [.ok (some { topic, offset := number, payload := Text.bytes text })]
  | undecodable => [.error (.io "stream did not contain valid UTF-8")]

theorem Line.brings_ofBytes (topic : String) (number : Nat) (line : List UInt8) :
    Brings topic number line ((Line.ofBytes line).answers topic number) := by
  cases hs : Text.ofBytes? line with
  | none =>
    have hline : Line.ofBytes line = .undecodable := by simp [Line.ofBytes, hs]
    rw [hline]
    refine .failure fun s hbytes => ?_
    rw [← hbytes, Text.ofBytes?_bytes] at hs
    cases hs
  | some s =>
    have hbytes := Text.bytes_of_ofBytes? hs
    have htrims := Text.trims_trim s
    by_cases htext : Text.trim s = ""
    · have hline : Line.ofBytes line = .blank := by simp [Line.ofBytes, hs, htext]
      rw [hline]
      rw [htext] at htrims
      exact .nothing hbytes fun c => htrims.isBlank_of_mem
    · have hline : Line.ofBytes line = .payload (Text.trim s) := by simp [Line.ofBytes, hs, htext]
      rw [hline]
      exact .message hbytes htrims htext

/-! ### What is still to come -/

namespace LineSource
variable {s : LineSource} {line : Line} {lines : List Line}

/-- What polls of an open source answer before its text is at an end. -/
def coming (s : LineSource) : List Polled :=
  if s.isExhausted then [] else (s.lines.zipIdx (s.position + 1)).flatMap fun line => line.1.answers s.topic line.2

theorem coming_exhausted (h : s.isExhausted = true) : s.coming = [] := if_pos h

theorem coming_open (h : s.isExhausted = false) :
    s.coming = (s.lines.zipIdx (s.position + 1)).flatMap fun line => line.1.answers s.topic line.2 :=
  if_neg (by simp [h])

/-- A poll takes the first answer of those to come, and sees the end where there is none. -/
structure TakesFirst (s : LineSource) (result : Polled × LineSource) : Prop where
  answer : result.1 = s.coming.head?.getD (.ok none)
  coming : result.2.coming = s.coming.tail
  isExhausted : result.2.isExhausted = s.coming.isEmpty
  failure : result.2.failure = s.failure
  subscribed : result.2.subscribed = s.subscribed

/-- The source, once its first line is read. -/
def pastLine (s : LineSource) : LineSource := { s with lines := s.lines.tail, position := s.position + 1 }

theorem coming_cons (hopen : s.isExhausted = false) (h : s.lines = line :: lines) :
    s.coming = line.answers s.topic (s.position + 1) ++ s.pastLine.coming := by
  have hpast : s.pastLine.isExhausted = false := hopen
  rw [coming_open hopen, coming_open hpast, pastLine, h]
  rfl

theorem advance_blank (h : s.lines = .blank :: lines) : s.advance = s.pastLine.advance := by
  simp [advance, pastLine, h, atEnd, Nat.add_assoc, Nat.add_comm 1]

theorem advance_payload {text : String} (h : s.lines = .payload text :: lines) :
    s.advance =
      (.ok (some { topic := s.topic, offset := s.pastLine.position, payload := Text.bytes text }), s.pastLine) := by
  simp [advance, pastLine, h]

theorem advance_undecodable (h : s.lines = .undecodable :: lines) :
    s.advance = (.error (.io "stream did not contain valid UTF-8"), s.pastLine) := by
  simp [advance, pastLine, h]

theorem takesFirst_advance (hopen : s.isExhausted = false) (hfailure : s.failure = none) : TakesFirst s s.advance := by
  induction hlines : s.lines generalizing s with
  | nil =>
    have hcoming : s.coming = [] := by rw [coming_open hopen, hlines]; rfl
    have hadvance : s.advance = (.ok none, { s with lines := [], isExhausted := true }) := by
      simp [advance, hlines, atEnd, hfailure]
    rw [hadvance]
    exact ⟨by rw [hcoming]; rfl, by rw [hcoming]; rfl, by rw [hcoming]; rfl, rfl, rfl⟩
  | cons line lines ih =>
    have hcoming := coming_cons hopen hlines
    cases line with
    | blank =>
      rw [Line.answers, List.nil_append] at hcoming
      obtain ⟨hanswer, hnext, hexhausted, hfailure, hsubscribed⟩ :=
        ih (s := s.pastLine) hopen hfailure (by simp [pastLine, hlines])
      rw [advance_blank hlines]
      exact ⟨by rw [hcoming, hanswer], by rw [hcoming, hnext], by rw [hcoming, hexhausted], hfailure, hsubscribed⟩
    | payload text =>
      rw [advance_payload hlines]
      exact ⟨by rw [hcoming]; rfl, by rw [hcoming]; rfl, by rw [hcoming]; exact hopen, rfl, rfl⟩
    | undecodable =>
      rw [advance_undecodable hlines]
      exact ⟨by rw [hcoming]; rfl, by rw [hcoming]; rfl, by rw [hcoming]; exact hopen, rfl, rfl⟩

theorem takesFirst_poll (hsubscribed : s.subscribed = true) (hfailure : s.failure = none) : TakesFirst s s.poll := by
  cases hexhausted : s.isExhausted with
  | false =>
    have hpoll : s.poll = s.advance := by simp [poll, hsubscribed, hexhausted]
    rw [hpoll]
    exact takesFirst_advance hexhausted hfailure
  | true =>
    have hpoll : s.poll = (.ok none, s) := by simp [poll, hsubscribed, hexhausted]
    have hcoming := coming_exhausted hexhausted
    rw [hpoll]
    exact ⟨by rw [hcoming]; rfl, by rw [hcoming]; rfl, by rw [hcoming, hexhausted]; rfl, rfl, rfl⟩

/-! ### Sessions -/

/-- What a request does to the source, with the answer. -/
def respond (s : LineSource) : SourceRequest → SourceCall × LineSource
  | .subscribe topics => (.subscribe topics (s.subscribe topics).1, (s.subscribe topics).2)
  | .poll timeout => (.poll timeout s.poll.1, s.poll.2)
  | .commit message => (.commit message (.ok ()), s.commit message)
  | .close => (.close (.ok ()), s.close)

variable {requests : List SourceRequest}

/-- The session with the source in this state. -/
def session (s : LineSource) (requests : List SourceRequest) : List SourceCall × LineSource :=
  (requests.mapM (Source.lines (m := StateM LineSource)).perform).run s

theorem run_perform (s : LineSource) (request : SourceRequest) :
    ((Source.lines (m := StateM LineSource)).perform request).run s = s.respond request := by
  cases request <;> rfl

theorem session_cons (s : LineSource) (request : SourceRequest) (requests : List SourceRequest) :
    s.session (request :: requests) =
      let (call, t) := s.respond request
      let (calls, u) := t.session requests
      (call :: calls, u) := by
  rw [session, List.mapM_cons, StateT.run_bind, run_perform]
  rfl

theorem respond_idle {request : SourceRequest} (hpoll : request.isPoll = false) (hclose : request ≠ .close) :
    (s.respond request).1.polled? = none ∧ (s.respond request).2.coming = s.coming ∧
      (s.respond request).2.isExhausted = s.isExhausted ∧ (s.respond request).2.failure = s.failure ∧
      (s.subscribed = true → (s.respond request).2.subscribed = true) := by
  cases request with
  | subscribe topics =>
    rw [respond, subscribe]
    split
    · exact ⟨rfl, rfl, rfl, rfl, fun _ => rfl⟩
    · exact ⟨rfl, rfl, rfl, rfl, id⟩
  | poll => cases hpoll
  | commit => exact ⟨rfl, rfl, rfl, rfl, id⟩
  | close => exact absurd rfl hclose

theorem range_succ_map_getD {α : Type} (xs : List α) (n : Nat) (a : α) :
    (List.range (n + 1)).map (xs.getD · a) = xs.head?.getD a :: (List.range n).map (xs.tail.getD · a) := by
  rw [List.range_succ_eq_map, List.map_cons, List.map_map]
  cases xs <;> rfl

theorem polled_session (hsubscribed : s.subscribed = true) (hfailure : s.failure = none)
    (hclose : .close ∉ requests) :
    (s.session requests).1.filterMap SourceCall.polled? =
        (List.range (requests.countP SourceRequest.isPoll)).map (s.coming.getD · (.ok none)) ∧
      ((s.session requests).2.isExhausted = true ↔
        s.isExhausted = true ∨ s.coming.length < requests.countP SourceRequest.isPoll) := by
  induction requests generalizing s with
  | nil => exact ⟨rfl, (or_iff_left (Nat.not_lt_zero _)).symm⟩
  | cons request requests ih =>
    obtain ⟨hrequest, hclosed⟩ := not_or.mp (List.mem_cons.not.mp hclose)
    rw [session_cons]
    cases hpoll : request.isPoll with
    | false =>
      obtain ⟨hanswer, hcoming, hexhausted, hfail, hstays⟩ := respond_idle hpoll (Ne.symm hrequest)
      obtain ⟨ihpolled, ihexhausted⟩ := ih (hstays hsubscribed) (hfail.trans hfailure) hclosed
      rw [List.countP_cons_of_neg (by simp [hpoll]), ← hcoming, ← hexhausted, ← ihpolled, ← ihexhausted]
      exact ⟨List.filterMap_cons_none hanswer, Iff.rfl⟩
    | true =>
      obtain ⟨timeout, rfl⟩ : ∃ timeout, request = .poll timeout := by
        cases request <;> cases hpoll
        exact ⟨_, rfl⟩
      obtain ⟨hanswer, hcoming, hexhausted, hfail, hstays⟩ := takesFirst_poll hsubscribed hfailure
      obtain ⟨ihpolled, ihexhausted⟩ := ih (s := s.poll.2) (hstays.trans hsubscribed) (hfail.trans hfailure) hclosed
      rw [List.countP_cons_of_pos hpoll, range_succ_map_getD, ← hcoming, ← hanswer, ← ihpolled]
      refine ⟨rfl, ihexhausted.trans ?_⟩
      rw [hexhausted, hcoming, List.length_tail]
      cases hs : s.coming with
      | nil => simp
      | cons answer more =>
        have hopen : s.isExhausted ≠ true := fun h => by simp [coming_exhausted h] at hs
        simp [hopen]

theorem isExhausted_respond (h : s.isExhausted = true) (request : SourceRequest) :
    (s.respond request).2.isExhausted = true := by
  cases request with
  | subscribe topics =>
    rw [respond, subscribe]
    split <;> exact h
  | poll timeout => by_cases hs : s.subscribed <;> simp [respond, poll, hs, h]
  | commit message => exact h
  | close => rfl

theorem isExhausted_session (h : s.isExhausted = true) (requests : List SourceRequest) :
    (s.session requests).2.isExhausted = true := by
  induction requests generalizing s with
  | nil => exact h
  | cons request requests ih =>
    rw [session_cons]
    exact ih (isExhausted_respond h request)

/-! ### All lines -/

/-- If both are messages, the second has the greater offset. -/
def Precedes (a b : Polled) : Prop :=
  ∀ m n, a = .ok (some m) → b = .ok (some n) → m.offset < n.offset

theorem offset_of_answers {topic : String} {number : Nat} {m : Message}
    (h : .ok (some m) ∈ line.answers topic number) : m.offset = number := by
  cases line with
  | payload text =>
    cases List.mem_singleton.mp h
    rfl
  | blank => cases h
  | undecodable => cases List.mem_singleton.mp h

theorem precedes_answers (topic : String) (lines : List Line) (k : Nat) :
    ((lines.zipIdx k).map fun line => line.1.answers topic line.2).flatten.Pairwise Precedes := by
  rw [← List.flatMap_def, List.pairwise_flatMap]
  refine ⟨fun line _ => ?_, ?_⟩
  · rcases line with ⟨_ | text | _, number⟩
    · exact .nil
    · exact List.pairwise_singleton _ _
    · exact List.pairwise_singleton _ _
  · refine (pairwise_zipIdx lines k).imp fun hlt x hx y hy m n hm hn => ?_
    subst hm hn
    rw [offset_of_answers hx, offset_of_answers hy]
    exact Int.ofNat_lt.mpr hlt

/-- The source is subscribed to its topic. Then each poll brings the next answer that is due to a line, in the order of
the lines and with their numbers, and after the last one none; that there is no more is known from then on, whatever
is called, and was not known before. -/
theorem every_line_once {topic : String} {topics : List String} (bytes : List UInt8) (htopic : topic ∈ topics) :
    ∃ closed rest brought s, Splits bytes closed rest ∧
      List.Forall₂ (fun line answers => Brings topic line.2 line.1 answers)
        ((closed ++ if rest = [] then [] else [rest]).zipIdx 1) brought ∧
      brought.flatten.Pairwise Precedes ∧
      ((Source.lines (m := StateM LineSource)).subscribe topics).run (ofBytes topic bytes none) = (.ok (), s) ∧
      ∀ requests, .close ∉ requests →
        (s.session requests).1.filterMap SourceCall.polled? =
          (List.range (requests.countP SourceRequest.isPoll)).map (brought.flatten.getD · (.ok none)) ∧
        ((s.session requests).2.isExhausted = true ↔
          brought.flatten.length < requests.countP SourceRequest.isPoll) ∧
        ((s.session requests).2.isExhausted = true →
          ∀ more, ((s.session requests).2.session more).2.isExhausted = true) := by
  have hlines := linesOf_none bytes
  let s : LineSource := { ofBytes topic bytes none with subscribed := true }
  have hbrought : s.coming =
      ((((linesOf bytes none).map Line.ofBytes).zipIdx 1).map fun line => line.1.answers topic line.2).flatten := by
    rw [coming_open rfl, List.flatMap_def]
    rfl
  have hsubscribe : (ofBytes topic bytes none).subscribe topics = (.ok (), s) := by
    simp [subscribe, ofBytes, htopic, s]
  refine ⟨_, _, _, s, splits_split bytes, ?_, precedes_answers topic ((linesOf bytes none).map Line.ofBytes) 1,
    hsubscribe, fun requests hclose => ?_⟩
  · rw [← hlines, List.zipIdx_map, List.map_map, List.forall₂_map_right_iff, List.forall₂_same]
    exact fun line _ => Line.brings_ofBytes topic line.2 line.1
  · obtain ⟨hpolled, hexhausted⟩ := polled_session (s := s) rfl rfl hclose
    rw [← hbrought]
    exact ⟨hpolled, hexhausted.trans (or_iff_right Bool.false_ne_true), isExhausted_session⟩

/-- A message between blanks, a blank line, a line that is no text, and a message that no line end follows. -/
def mixed : List UInt8 := Text.bytes " [] \n\t\n" ++ [0xFF, lineEnd] ++ Text.bytes "0"

theorem mixed_polled : ∃ closed rest brought, Splits mixed closed rest ∧
    List.Forall₂ (fun line answers => Brings "log" line.2 line.1 answers)
      ((closed ++ if rest = [] then [] else [rest]).zipIdx 1) brought ∧
    (List.range 4).map (brought.flatten.getD · (.ok none)) =
      [.ok (some { topic := "log", offset := 1, payload := Text.bytes "[]" }),
        .error (.io "stream did not contain valid UTF-8"),
        .ok (some { topic := "log", offset := 4, payload := Text.bytes "0" }), .ok none] := by
  obtain ⟨closed, rest, brought, s, hsplits, hbrings, -, hsubscribe, hsession⟩ :=
    every_line_once mixed (show "log" ∈ ["runs", "log"] by simp)
  refine ⟨closed, rest, brought, hsplits, hbrings, ?_⟩
  obtain ⟨hpolled, -⟩ := hsession (List.replicate 4 (.poll default)) (by simp)
  cases hsubscribe
  exact hpolled.symm.trans (by decide +kernel)

end LineSource
end CatalogSync
