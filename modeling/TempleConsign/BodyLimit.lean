import TempleConsign.Lib.Interaction
import Mathlib.Algebra.Ring.Nat
import Mathlib.Tactic.SplitIfs

/-!
# The limit on request bodies

Model of `MaxBodySizeMiddleware` (`src/api/middleware/body_size.py`). A request whose
Content-Length is over the limit is refused before the application runs. Otherwise the bytes
are counted as the application reads them; the read that goes over the limit drains the
stream, sends a 413 and gives the application an empty last chunk. The application is not
stopped: it goes on with the part of the body it has.

The application is any program on any type of states.

Deviations: an ASGI message has the keys that the middleware reads or writes, with the
defaults it reads them with. The dictionary of headers is looked up as a list, where the last
entry of a name counts.

Results:
* `seen_within_limit`: whatever the stream and the application do, the application is never
  given more bytes than the limit.
* `within_limit_transparent`: up to the limit the middleware changes nothing in an HTTP
  request.
* `over_limit_truncated`: over the limit the application runs to its end on a shorter body,
  after the 413.
* `over_limit_answers_twice`: so an application that answers an HTTP request once makes a
  second answer.
-/

namespace TempleConsign.BodyLimit

open ServiceLib.Interaction

/-! ## Messages -/

abbrev Bytes := List UInt8

/-- The bytes of an ASCII text. -/
def ascii (text : String) : Bytes := text.toList.map fun c => UInt8.ofNat c.toNat

/-- An ASGI message. -/
structure Message where
  type : String
  status : Option ℕ := none
  headers : List (Bytes × Bytes) := []
  body : Bytes := []
  moreBody : Bool := false

/-- The connection scope of ASGI. -/
structure Scope where
  type : String
  headers : List (Bytes × Bytes) := []

def Message.isRequest (m : Message) : Bool := m.type = "http.request"

/-- The message that ends the body (line 51). -/
def eof : Message := { type := "http.request" }

/-- The two messages of `_send_413` (line 57). -/
def start413 : Message :=
  { type := "http.response.start", status := some 413,
    headers := [(ascii "content-type", ascii "application/json")] }

def body413 : Message :=
  { type := "http.response.body",
    body := ascii "\x7b\"detail\":\"Request body too large.\"\x7d" }

/-! ## `int` on bytes -/

def isSpace (b : UInt8) : Bool := b = 32 || (9 ≤ b && b ≤ 13)

def digit? (b : UInt8) : Option ℕ := if 48 ≤ b ∧ b ≤ 57 then some (b.toNat - 48) else none

/-- Decimal digits, with single underscores between them. -/
def digits : Bytes → Option (List ℕ)
  | [] => none
  | [b] => (digit? b).map fun d => [d]
  | b :: 95 :: rest => (digit? b).bind fun d => (digits rest).map (d :: ·)
  | b :: rest => (digit? b).bind fun d => (digits rest).map (d :: ·)

/-- The sign of a number and its digits. -/
def splitSign : Bytes → ℤ × Bytes
  | 43 :: rest => (1, rest)
  | 45 :: rest => (-1, rest)
  | rest => (1, rest)

/-- `int(text)`, with the limit of 4300 digits; `none` is a `ValueError`. -/
def int (text : Bytes) : Option ℤ :=
  let number := splitSign ((text.dropWhile isSpace).reverse.dropWhile isSpace).reverse
  (digits number.2).bind fun ds =>
    if ds.length ≤ 4300 then some (number.1 * (ds.foldl (fun n d => 10 * n + d) 0 : ℕ)) else none

/-- `headers.get(name)` on `dict(scope["headers"])`. -/
def Scope.header (scope : Scope) (name : Bytes) : Option Bytes := scope.headers.reverse.lookup name

/-- `declared` (lines 26-32); it is 0 where there is nothing to compare. -/
def Scope.declared (scope : Scope) : ℤ :=
  match scope.header (ascii "content-length") with
  | none => 0
  | some text => if text = [] then 0 else (int text).getD 0

/-! ## The middleware -/

variable {σ : Type}

/-- Where a call of the middleware is, with the state of the application and `received`. -/
inductive Guard (σ : Type)
  | passed (s : σ)
  | refusing
  | refused
  | finished
  | running (s : σ) (received : ℕ)
  | draining (s : σ) (received : ℕ)
  | rejecting (s : σ) (received : ℕ)
  | rejected (s : σ) (received : ℕ)

/-- The drain loop (line 47) after the message `m`. -/
def drain (s : σ) (received : ℕ) (m : Message) : Guard σ :=
  if m.moreBody then .draining s received else .rejecting s received

/-- `counting_receive` (line 39) once `receive` gave `m`, for the application that goes on
    with `next`. -/
def countingReceive (max received : ℕ) (next : Message → σ) (m : Message) : Guard σ :=
  if m.isRequest then
    if max < received + m.body.length then drain (next eof) (received + m.body.length) m
    else .running (next m) (received + m.body.length)
  else .running (next m) received

/-- `__call__` (line 21) as a program around the application. -/
def limited (max : ℕ) (app : σ → Move Message Message σ) :
    Guard σ → Move Message Message (Guard σ)
  | .passed s =>
    match app s with
    | .stop => .stop
    | .send m t => .send m (.passed t)
    | .receive next => .receive fun m => .passed (next m)
  | .refusing => .send start413 .refused
  | .refused => .send body413 .finished
  | .finished => .stop
  | .running s received =>
    match app s with
    | .stop => .stop
    | .send m t => .send m (.running t received)
    | .receive next => .receive (countingReceive max received next)
  | .draining s received => .receive (drain s received)
  | .rejecting s received => .send start413 (.rejected s received)
  | .rejected s received => .send body413 (.running s received)

/-- The call on a scope, for the application in its first state. -/
def call (max : ℕ) (scope : Scope) (s : σ) : Guard σ :=
  if scope.type ≠ "http" then .passed s
  else if max < scope.declared then .refusing
  else .running s 0

/-- The state of the application, which a refused request leaves where it starts. -/
def Guard.app (first : σ) : Guard σ → σ
  | .passed s | .running s _ | .draining s _ | .rejecting s _ | .rejected s _ => s
  | .refusing | .refused | .finished => first

/-! ## Histories -/

abbrev History := List (Event Message Message)

/-- The bytes of the body that an event delivers. -/
def bytesOf : Event Message Message → ℕ
  | .received m => if m.isRequest then m.body.length else 0
  | .sent _ => 0

def bodyBytes (tr : History) : ℕ := (tr.map bytesOf).sum

def isStart : Event Message Message → Bool
  | .received _ => false
  | .sent m => m.type = "http.response.start"

/-- The number of answers that were started. -/
def answers (tr : History) : ℕ := tr.countP isStart

/-- A chunk of the body comes after chunks that promised more. -/
def InOrder : Event Message Message → Event Message Message → Prop
  | .received m, .received m' => m'.isRequest = true → m.isRequest = true ∧ m.moreBody = true
  | _, _ => True

/-- The stream is one that a server delivers: the chunks of the body, then disconnects. -/
def Delivered (tr : History) : Prop := tr.Pairwise InOrder

/-- The two messages of the refusal, as events. -/
def rejection : History := [.sent start413, .sent body413]

/-- The history went over the limit with `m`, the rest of the stream was drained and `tail`
    followed; the application saw the end of the body and then `post`. -/
def Overflow (max : ℕ) (tr seen tail post : History) : Prop :=
  ∃ (pre : History) (m : Message) (drained : List Message),
    tr = pre ++ .received m :: (drained.map .received ++ tail) ∧
    seen = pre ++ .received eof :: post ∧ bodyBytes pre ≤ max ∧
    max < bodyBytes (pre ++ [.received m])

/-- A chunk or a disconnect said that nothing follows. -/
def Ended (tr : History) : Prop := ∃ m : Message, .received m ∈ tr ∧ m.moreBody = false

/-- How the history of the call and the one that the application saw belong together. -/
def Phase (max : ℕ) (tr seen : History) : Guard σ → Prop
  | .passed _ | .refusing | .refused | .finished => False
  | .running _ received =>
    (received ≤ max ∧ received = bodyBytes tr ∧ seen = tr) ∨
      ((max < received ∧ max < bodyBytes tr) ∧
        (Delivered tr → Ended tr ∧ ∃ post, Overflow max tr seen (rejection ++ post) post))
  | .draining _ received =>
    (max < received ∧ max < bodyBytes tr) ∧ (Delivered tr → Overflow max tr seen [] [])
  | .rejecting _ received =>
    (max < received ∧ max < bodyBytes tr) ∧
      (Delivered tr → Ended tr ∧ Overflow max tr seen [] [])
  | .rejected _ received =>
    (max < received ∧ max < bodyBytes tr) ∧
      (Delivered tr → Ended tr ∧ Overflow max tr seen [.sent start413] [])

@[simp] theorem bodyBytes_nil : bodyBytes [] = 0 := rfl

@[simp] theorem bodyBytes_append (tr tr' : History) :
    bodyBytes (tr ++ tr') = bodyBytes tr + bodyBytes tr' := by
  simp [bodyBytes]

@[simp] theorem bodyBytes_cons (e : Event Message Message) (tr : History) :
    bodyBytes (e :: tr) = bytesOf e + bodyBytes tr := by
  simp [bodyBytes]

@[simp] theorem bytesOf_sent (m : Message) : bytesOf (.sent m) = 0 := rfl

@[simp] theorem bytesOf_eof : bytesOf (.received eof) = 0 := rfl

theorem bytesOf_received (m : Message) :
    bytesOf (.received m) = if m.isRequest then m.body.length else 0 := rfl

theorem answers_append (tr tr' : History) : answers (tr ++ tr') = answers tr + answers tr' :=
  List.countP_append

theorem answers_received (ms : List Message) : answers (ms.map .received) = 0 := by
  simp [answers, List.countP_eq_zero, isStart]

theorem Delivered.before {tr : History} {e : Event Message Message} (h : Delivered (tr ++ [e])) :
    Delivered tr :=
  (List.pairwise_append.mp h).1

theorem Ended.after {tr : History} (h : Ended tr) (tr' : History) : Ended (tr ++ tr') := by
  obtain ⟨m, hm, hlast⟩ := h
  exact ⟨m, List.mem_append_left tr' hm, hlast⟩

/-- After the end of a delivered stream there are no chunks. -/
theorem Ended.not_request {tr : History} {m : Message} (h : Ended tr)
    (hdel : Delivered (tr ++ [.received m])) : m.isRequest = false := by
  obtain ⟨last, hmem, hlast⟩ := h
  have horder := (List.pairwise_append.mp hdel).2.2 _ hmem (.received m) (by simp)
  cases hm : m.isRequest with
  | false => rfl
  | true =>
    have hmore := (horder hm).2
    rw [hlast] at hmore
    cases hmore

/-- What comes after the drain is appended to both histories. -/
theorem Overflow.snoc {max : ℕ} {tr seen tail post : History}
    (h : Overflow max tr seen tail post) (e : Event Message Message) :
    Overflow max (tr ++ [e]) (seen ++ [e]) (tail ++ [e]) (post ++ [e]) := by
  obtain ⟨pre, m, drained, rfl, rfl, hpre, hm⟩ := h
  exact ⟨pre, m, drained, by simp, by simp, hpre, hm⟩

theorem Overflow.sent {max : ℕ} {tr seen tail post : History}
    (h : Overflow max tr seen tail post) (e : Event Message Message) :
    Overflow max (tr ++ [e]) seen (tail ++ [e]) post := by
  obtain ⟨pre, m, drained, rfl, rfl, hpre, hm⟩ := h
  exact ⟨pre, m, drained, by simp, rfl, hpre, hm⟩

theorem Overflow.drained {max : ℕ} {tr seen : History} (h : Overflow max tr seen [] [])
    (m : Message) : Overflow max (tr ++ [.received m]) seen [] [] := by
  obtain ⟨pre, m', drained, rfl, rfl, hpre, hm⟩ := h
  exact ⟨pre, m', drained ++ [m], by simp, rfl, hpre, hm⟩

/-! ## The application inside the middleware -/

variable {max : ℕ} {app : σ → Move Message Message σ} {scope : Scope} {s : σ}

/-- The histories belong together, and the application was not given more than the limit. -/
def Coupled (max : ℕ) (tr seen : History) (g : Guard σ) : Prop :=
  bodyBytes seen ≤ max ∧ Phase max tr seen g

theorem over_snoc {tr : History} {n : ℕ} (h : max < n ∧ max < bodyBytes tr)
    (e : Event Message Message) : max < n ∧ max < bodyBytes (tr ++ [e]) := by
  rw [bodyBytes_append]
  exact ⟨h.1, by omega⟩

/-- A read that goes over the limit. -/
theorem phase_drain {tr seen : History} {n : ℕ} {m : Message} {t : σ}
    (hn : max < n ∧ max < bodyBytes (tr ++ [.received m]))
    (h : Delivered (tr ++ [.received m]) → Overflow max (tr ++ [.received m]) seen [] []) :
    Phase max (tr ++ [.received m]) seen (drain t n m) := by
  unfold drain
  split
  · exact ⟨hn, h⟩
  · next hlast =>
    have hended : Ended (tr ++ [.received m]) := ⟨m, by simp, by simpa using hlast⟩
    exact ⟨hn, fun hdel => ⟨hended, h hdel⟩⟩

theorem drain_app (t first : σ) (n : ℕ) (m : Message) : (drain t n m).app first = t := by
  unfold drain
  split <;> rfl

/-- What the application sends goes out, and what is not a chunk of the body goes in. -/
theorem phase_passed {tr seen : History} {t u : σ} {n : ℕ} {e : Event Message Message}
    (h : Phase max tr seen (.running t n)) (he : bytesOf e = 0) :
    Phase max (tr ++ [e]) (seen ++ [e]) (.running u n) := by
  rcases h with ⟨hn, hcount, rfl⟩ | ⟨hn, hover⟩
  · exact .inl ⟨hn, by simpa [he] using hcount, rfl⟩
  · refine .inr ⟨over_snoc hn e, fun hdel => ?_⟩
    obtain ⟨hended, post, hpost⟩ := hover hdel.before
    refine ⟨hended.after [e], post ++ [e], ?_⟩
    rw [← List.append_assoc]
    exact hpost.snoc e

theorem coupled_received {tr seen : History} {t : σ} {n : ℕ} {k : Message → σ}
    (h : Coupled max tr seen (.running t n)) (happ : app t = .receive k) (m : Message) :
    ∃ es, Trace app t es ((countingReceive max n k m).app s) ∧
      Coupled max (tr ++ [.received m]) (seen ++ es) (countingReceive max n k m) := by
  obtain ⟨hbytes, hphase⟩ := h
  unfold countingReceive
  by_cases hm : m.isRequest = true
  · have hsize : bytesOf (.received m) = m.body.length := by rw [bytesOf_received, if_pos hm]
    rw [if_pos hm]
    split
    · next hgt =>
      refine ⟨[.received eof], ?_, by simpa using hbytes, ?_⟩
      · rw [drain_app]
        exact (Can.receive eof happ).trace
      · rcases hphase with ⟨-, rfl, rfl⟩ | ⟨hn, hover⟩
        · have hbody : max < bodyBytes (seen ++ [.received m]) := by simpa [hsize] using hgt
          exact phase_drain ⟨hgt, hbody⟩ fun _ => ⟨seen, m, [], by simp, rfl, hbytes, hbody⟩
        · refine phase_drain ⟨hgt, (over_snoc hn _).2⟩ fun hdel => ?_
          have hnot := (hover hdel.before).1.not_request hdel
          rw [hm] at hnot
          cases hnot
    · next hle =>
      have hfit : n + m.body.length ≤ max := Nat.le_of_not_lt hle
      refine ⟨[.received m], (Can.receive m happ).trace, ?_⟩
      rcases hphase with ⟨-, rfl, rfl⟩ | ⟨hn, -⟩
      · exact ⟨by simpa [hsize] using hfit, .inl ⟨hfit, by simp [hsize], rfl⟩⟩
      · omega
  · have hsize : bytesOf (.received m) = 0 := by rw [bytesOf_received, if_neg hm]
    rw [if_neg hm]
    exact ⟨[.received m], (Can.receive m happ).trace, by simpa [hsize] using hbytes,
      phase_passed hphase hsize⟩

theorem coupled_running {tr seen : History} {t : σ} {n : ℕ} {g : Guard σ}
    {e : Event Message Message} (h : Coupled max tr seen (.running t n))
    (he : Can (limited max app) (.running t n) e g) :
    ∃ es, Trace app t es (g.app s) ∧ Coupled max (tr ++ [e]) (seen ++ es) g := by
  cases happ : app t with
  | stop =>
    cases he with
    | send hsend => simp [limited, happ] at hsend
    | receive m hrecv => simp [limited, happ] at hrecv
  | send m u =>
    cases he with
    | send hsend =>
      simp only [limited, happ, Move.send.injEq] at hsend
      obtain ⟨rfl, rfl⟩ := hsend
      exact ⟨[.sent m], (Can.send happ).trace, by simpa using h.1, phase_passed h.2 rfl⟩
    | receive m hrecv => simp [limited, happ] at hrecv
  | receive k =>
    cases he with
    | send hsend => simp [limited, happ] at hsend
    | receive m hrecv =>
      simp only [limited, happ, Move.receive.injEq] at hrecv
      subst hrecv
      exact coupled_received h happ m

/-- One event of the call, and the events of the application that it stands for. -/
theorem coupled_step {tr seen : History} {g g' : Guard σ} {e : Event Message Message}
    (h : Coupled max tr seen g) (he : Can (limited max app) g e g') :
    ∃ es, Trace app (g.app s) es (g'.app s) ∧ Coupled max (tr ++ [e]) (seen ++ es) g' := by
  cases g with
  | passed | refusing | refused | finished => exact h.2.elim
  | running t n => exact coupled_running h he
  | draining t n =>
    cases he with
    | send hsend => cases hsend
    | receive m hrecv =>
      cases hrecv
      refine ⟨[], ?_, by simpa using h.1, ?_⟩
      · rw [drain_app]
        exact .nil
      · rw [List.append_nil]
        exact phase_drain (over_snoc h.2.1 _) fun hdel => (h.2.2 hdel.before).drained m
  | rejecting t n =>
    cases he with
    | send hsend =>
      cases hsend
      refine ⟨[], .nil, by simpa using h.1, over_snoc h.2.1 _, fun hdel => ?_⟩
      obtain ⟨hended, hover⟩ := h.2.2 hdel.before
      exact ⟨hended.after _, by simpa using hover.sent (.sent start413)⟩
    | receive m hrecv => cases hrecv
  | rejected t n =>
    cases he with
    | send hsend =>
      cases hsend
      refine ⟨[], .nil, by simpa using h.1, .inr ⟨over_snoc h.2.1 _, fun hdel => ?_⟩⟩
      obtain ⟨hended, hover⟩ := h.2.2 hdel.before
      exact ⟨hended.after _, [], by simpa [rejection] using hover.sent (.sent body413)⟩
    | receive m hrecv => cases hrecv

/-- The state of the application comes from a history of its own. -/
theorem coupled_trace {tr : History} {g : Guard σ}
    (h : Trace (limited max app) (.running s 0) tr g) :
    ∃ seen, Trace app s seen (g.app s) ∧ Coupled max tr seen g :=
  h.inside (Guard.app s) ⟨Nat.zero_le max, .inl ⟨Nat.zero_le max, rfl, rfl⟩⟩
    fun _ _ _ _ _ hg he => coupled_step hg he

/-! ## Calls -/

/-- A request whose declared length is in the limit starts the application. -/
theorem call_running (hhttp : scope.type = "http") (hdecl : scope.declared ≤ max) :
    call max scope s = .running s 0 := by
  rw [call, if_neg (not_not.mpr hhttp), if_neg (by omega)]

/-- A refused request does not run the application. -/
theorem refused_app {tr : History} {g : Guard σ}
    (h : Trace (limited max app) .refusing tr g) : g.app s = s := by
  have hphase : g = .refusing ∨ g = .refused ∨ g = .finished := by
    refine h.induction (P := fun _ g => g = .refusing ∨ g = .refused ∨ g = .finished) (.inl rfl) ?_
    rintro - t e u (rfl | rfl | rfl) he
    · cases he with
      | send hsend => cases hsend; exact .inr (.inl rfl)
      | receive m hrecv => cases hrecv
    · cases he with
      | send hsend => cases hsend; exact .inr (.inr rfl)
      | receive m hrecv => cases hrecv
    · cases he with
      | send hsend => cases hsend
      | receive m hrecv => cases hrecv
  rcases hphase with rfl | rfl | rfl <;> rfl

/-! A small application, and a body of four bytes that it reads under a limit of three. -/

/-- An application that reads the body and answers. -/
inductive Reader
  | reading
  | answering
  | closing
  | done

def reader : Reader → Move Message Message Reader
  | .reading => .receive fun m => if m.isRequest && m.moreBody then .reading else .answering
  | .answering => .send { type := "http.response.start", status := some 200 } .closing
  | .closing => .send { type := "http.response.body" } .done
  | .done => .stop

def chunk (body : String) (moreBody : Bool) : Message :=
  { type := "http.request", body := ascii body, moreBody }

/-- Four bytes in three chunks, to a server with a limit of three. -/
def overlong : History :=
  [.received (chunk "ab" true), .received (chunk "cd" true), .received (chunk "" false),
    .sent start413, .sent body413,
    .sent { type := "http.response.start", status := some 200 },
    .sent { type := "http.response.body" }]

/-- The answers that the application has started. -/
def Reader.answered : Reader → ℕ
  | .reading | .answering => 0
  | .closing | .done => 1

theorem reader_answers_once {seen : History} {t : Reader} (h : Trace reader .reading seen t)
    (hstop : reader t = .stop) : answers seen = 1 := by
  have hphase : answers seen = t.answered := by
    refine h.induction (P := fun seen t => answers seen = t.answered) rfl ?_
    intro tr t e u htr he
    rw [answers_append, htr]
    cases t with
    | reading =>
      cases he with
      | send hsend => cases hsend
      | receive m hrecv =>
        cases hrecv
        dsimp only
        split_ifs <;> rfl
    | answering =>
      cases he with
      | send hsend => cases hsend; rfl
      | receive m hrecv => cases hrecv
    | closing =>
      cases he with
      | send hsend => cases hsend; rfl
      | receive m hrecv => cases hrecv
    | done =>
      cases he with
      | send hsend => cases hsend
      | receive m hrecv => cases hrecv
  cases t with
  | done => exact hphase
  | _ => cases hstop

theorem overlong_trace :
    Trace (limited 3 reader) (call 3 ⟨"http", []⟩ .reading) overlong (.running .done 4) := by
  rw [call_running rfl (by decide)]
  have h1 : Can (limited 3 reader) (.running .reading 0) (.received (chunk "ab" true))
      (.running .reading 2) := can_received.mpr ⟨_, rfl, rfl⟩
  have h2 : Can (limited 3 reader) (.running .reading 2) (.received (chunk "cd" true))
      (.draining .answering 4) := can_received.mpr ⟨_, rfl, rfl⟩
  have h3 : Can (limited 3 reader) (.draining .answering 4) (.received (chunk "" false))
      (.rejecting .answering 4) := can_received.mpr ⟨_, rfl, rfl⟩
  have h4 : Can (limited 3 reader) (.rejecting .answering 4) (.sent start413)
      (.rejected .answering 4) := .send rfl
  have h5 : Can (limited 3 reader) (.rejected .answering 4) (.sent body413)
      (.running .answering 4) := .send rfl
  exact ((((((h1.trace.snoc h2).snoc h3).snoc h4).snoc h5).snoc (.send rfl)).snoc (.send rfl))

/-- Whatever the server delivers and the application does, an HTTP request never gives the
    application more bytes than the limit. -/
theorem seen_within_limit (max : ℕ) (app : σ → Move Message Message σ) (s : σ) (scope : Scope)
    (hhttp : scope.type = "http") (tr : History) (g : Guard σ)
    (h : Trace (limited max app) (call max scope s) tr g) :
    ∃ seen, Trace app s seen (g.app s) ∧ bodyBytes seen ≤ max := by
  by_cases hdecl : scope.declared ≤ max
  · rw [call_running hhttp hdecl] at h
    obtain ⟨seen, hseen, hbytes, -⟩ := coupled_trace h
    exact ⟨seen, hseen, hbytes⟩
  · rw [call, if_neg (not_not.mpr hhttp), if_pos (by omega)] at h
    rw [refused_app h]
    exact ⟨[], .nil, Nat.zero_le max⟩

theorem overlong_seen : ∃ seen, Trace reader .reading seen .done ∧ bodyBytes seen ≤ 3 :=
  seen_within_limit 3 reader .reading ⟨"http", []⟩ rfl overlong _ overlong_trace

theorem limited_stop_iff {t : σ} {n : ℕ} :
    limited max app (.running t n) = .stop ↔ app t = .stop := by
  simp only [limited]
  cases app t <;> simp

/-- Up to the limit an HTTP call has the traces of the application. -/
theorem within_limit_transparent (max : ℕ) (app : σ → Move Message Message σ) (s : σ)
    (scope : Scope) (hhttp : scope.type = "http") (hdecl : scope.declared ≤ max) (tr : History)
    (hbytes : bodyBytes tr ≤ max) (g : Guard σ) :
    Trace (limited max app) (call max scope s) tr g ↔
      ∃ t, g = .running t (bodyBytes tr) ∧ Trace app s tr t := by
  rw [call_running hhttp hdecl]
  constructor
  · intro h
    obtain ⟨seen, hseen, -, hphase⟩ := coupled_trace h
    cases g with
    | passed | refusing | refused | finished => exact hphase.elim
    | running t n =>
      rcases hphase with ⟨-, rfl, rfl⟩ | ⟨⟨-, hover⟩, -⟩
      · exact ⟨t, rfl, hseen⟩
      · omega
    | draining t n => exact absurd hphase.1.2 (by omega)
    | rejecting t n => exact absurd hphase.1.2 (by omega)
    | rejected t n => exact absurd hphase.1.2 (by omega)
  · rintro ⟨t, rfl, h⟩
    induction h with
    | nil => exact .nil
    | @snoc tr t u e h he ih =>
      rw [bodyBytes_append, bodyBytes_cons, bodyBytes_nil, Nat.add_zero] at hbytes ⊢
      refine (ih (by omega)).snoc ?_
      cases he with
      | send hsend => exact .send (by simp only [limited, hsend]; rfl)
      | @receive k m hrecv =>
        have hnext : countingReceive max (bodyBytes tr) k m =
            .running (k m) (bodyBytes tr + bytesOf (.received m)) := by
          rw [bytesOf_received] at hbytes ⊢
          unfold countingReceive
          split_ifs at hbytes ⊢ with hm hgt
          · omega
          · rfl
          · rfl
        rw [← hnext]
        exact .receive m (by simp only [limited, hrecv])

theorem short_transparent :
    Trace (limited 3 reader) (call 3 ⟨"http", []⟩ .reading) [.received (chunk "ab" false)]
        (.running .answering 2) ↔
      ∃ t, Guard.running Reader.answering 2 = .running t 2 ∧
        Trace reader .reading [.received (chunk "ab" false)] t :=
  within_limit_transparent 3 reader .reading ⟨"http", []⟩ rfl (by decide)
    [.received (chunk "ab" false)] (by decide) (.running .answering 2)

/-- Over the limit an HTTP call that ends has sent the 413 after the stream was drained, and then
    what the application sent on the part of the body that fits. -/
theorem over_limit_truncated (hhttp : scope.type = "http") (hdecl : scope.declared ≤ max)
    {tr : History} (hdel : Delivered tr) (hover : max < bodyBytes tr) {g : Guard σ}
    (h : Trace (limited max app) (call max scope s) tr g) (hstop : limited max app g = .stop) :
    ∃ (pre : History) (m : Message) (drained : List Message) (post : History) (t : σ),
      tr = pre ++ .received m :: (drained.map .received ++ (rejection ++ post)) ∧
        bodyBytes pre ≤ max ∧ Trace app s (pre ++ .received eof :: post) t ∧ app t = .stop := by
  rw [call_running hhttp hdecl] at h
  obtain ⟨seen, hseen, -, hphase⟩ := coupled_trace h
  cases g with
  | passed | refusing | refused | finished => exact hphase.elim
  | running t n =>
    rcases hphase with ⟨hn, rfl, rfl⟩ | ⟨-, hphase⟩
    · omega
    · obtain ⟨-, post, pre, m, drained, htr, rfl, hpre, -⟩ := hphase hdel
      exact ⟨pre, m, drained, post, t, htr, hpre, hseen, limited_stop_iff.mp hstop⟩
  | draining | rejecting | rejected => cases hstop

/-- An application that starts one answer to each HTTP request, also to a body that is cut off,
    makes the call start two: the 413 and, by `over_limit_truncated`, its own. -/
theorem over_limit_answers_twice (max : ℕ) (app : σ → Move Message Message σ) (s : σ)
    (scope : Scope) (hhttp : scope.type = "http") (hdecl : scope.declared ≤ max)
    (happ : ∀ seen t, Trace app s seen t → app t = .stop → answers seen = 1) (tr : History)
    (hdel : Delivered tr) (hover : max < bodyBytes tr) (g : Guard σ)
    (h : Trace (limited max app) (call max scope s) tr g) (hstop : limited max app g = .stop) :
    answers tr = 2 := by
  obtain ⟨pre, m, drained, post, t, rfl, -, hseen, ht⟩ :=
    over_limit_truncated hhttp hdecl hdel hover h hstop
  have hone := happ _ t hseen ht
  have hreply : answers rejection = 1 := by decide
  have hcons : ∀ (m : Message) (tr : History), answers (.received m :: tr) = answers tr :=
    fun m tr => by simp [answers, isStart]
  rw [answers_append, hcons] at hone ⊢
  rw [answers_append, answers_received, answers_append, hreply]
  omega

theorem overlong_answered_twice : answers overlong = 2 :=
  over_limit_answers_twice 3 reader .reading ⟨"http", []⟩ rfl (by decide)
    (fun _ _ h hstop => reader_answers_once h hstop) overlong
    (by simp [Delivered, overlong, InOrder, chunk, Message.isRequest]) (by decide)
    (.running .done 4) overlong_trace rfl

end TempleConsign.BodyLimit
