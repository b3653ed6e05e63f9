import InsertLayout.Session
import InsertLayout.Proofs.Accepted
import InsertLayout.Proofs.Selection
import InsertLayout.Proofs.Splice

/-!
# Runs of sessions

A request changes the document, the options or the cursor of a session, or nothing (`step_changes`):
only edits change the document, only accepted options the options, and only a search or a jump the
cursor. A request that is refused changes nothing (`step_of_refuses`), and each response tells what
the session holds behind it (`step_tells`). `Session.after` is the session that several requests
lead to. Both hold of every response in a run (`of_mem_run`), and what each request keeps is kept by
the run: without an edit the document stays (`after_text`), without a search or a jump the cursor
(`after_cursor`), and options stay valid (`after_valid`). Searches from the front of a document on
come to its statements one after another and then find nothing (`run_searches`).
-/

set_option autoImplicit false

namespace InsertLayout

open Text Statement Document

/-! ## One request -/

/-- The requests that edit the document. -/
def Request.Edits : Request → Prop
  | .format | .select _ _ | .append _ | .prepend _ => True
  | _ => False

/-- The requests that look for the next statement. -/
def Request.Searches : Request → Prop
  | .next | .parseNext => True
  | _ => False

/-- The responses that refuse the request. -/
def Response.Refuses : Response → Prop
  | .selected (.error _) | .options (.error _) => True
  | _ => False

/-- What a response says of the session is so. -/
def Response.Tells (session : Session) : Response → Prop
  | .formatted text _ => session.text = text
  | .selected result => ∀ text, result = .ok text → session.text = text
  | .options result => ∀ options, result = .ok options → session.options = options
  | .size bytes => session.text.byteLength = bytes
  | .cursor position | .found _ position | .parsed _ position => session.cursor = position

namespace Session

variable {session : Session} {request : Request}

/-- What a request can do to a session: nothing, or one change. -/
inductive Changes (session : Session) (request : Request) : Session → Prop where
  | nothing : Changes session request session
  | document (text : Text) : request.Edits → Changes session request { session with text }
  | options {value : Json} {options : Options} : request = .setOptions value →
      Options.ofJson? value = .ok options → Changes session request { session with options }
  | jump {cursor : Nat} : request = .seek cursor → Changes session request { session with cursor }
  | search {span : Span} : request.Searches →
      Span.next? session.options.quotes session.cursor session.text = some span →
        Changes session request { session with cursor := span.stop }

theorem advance_of_some {span : Span}
    (h : Span.next? session.options.quotes session.cursor session.text = some span) :
    session.advance = (some span, { session with cursor := span.stop }) := by
  unfold advance
  rw [h]

theorem advance_of_none
    (h : Span.next? session.options.quotes session.cursor session.text = none) :
    session.advance = (none, session) := by
  unfold advance
  rw [h]

theorem advance_changes (hsearch : request.Searches) :
    session.Changes request session.advance.2 := by
  cases h : Span.next? session.options.quotes session.cursor session.text with
  | none =>
    rw [advance_of_none h]
    exact .nothing
  | some span =>
    rw [advance_of_some h]
    exact .search hsearch h

theorem step_changes (session : Session) (request : Request) :
    session.Changes request (session.step request).2 := by
  cases request with
  | format =>
    simp only [step]
    cases reformat? session.options session.text with
    | none => exact .nothing
    | some text => exact .document text trivial
  | select start stop =>
    simp only [step]
    cases formatSelection session.options start stop session.text with
    | error e => exact .nothing
    | ok text => exact .document text trivial
  | setOptions value =>
    simp only [step]
    cases h : Options.ofJson? value with
    | error e => exact .nothing
    | ok options => exact .options rfl h
  | append text => exact .document (session.text ++ text) trivial
  | prepend text => exact .document (text ++ session.text) trivial
  | seek cursor => exact .jump rfl
  | next | parseNext => exact advance_changes trivial

/-- A request that is refused leaves the session as it is. -/
theorem step_of_refuses (h : (session.step request).1.Refuses) :
    (session.step request).2 = session := by
  cases request with
  | format =>
    simp only [step] at h
    cases hformat : reformat? session.options session.text <;> rw [hformat] at h <;> exact h.elim
  | select start stop =>
    simp only [step] at h ⊢
    cases hselect : formatSelection session.options start stop session.text with
    | error e => rfl
    | ok text => rw [hselect] at h; exact h.elim
  | setOptions value =>
    simp only [step] at h ⊢
    cases hvalue : Options.ofJson? value with
    | error e => rfl
    | ok options => rw [hvalue] at h; exact h.elim
  | _ => exact h.elim

/-- A response tells what the session holds behind it. -/
theorem step_tells (session : Session) (request : Request) :
    (session.step request).1.Tells (session.step request).2 := by
  cases request with
  | format =>
    simp only [step]
    cases reformat? session.options session.text <;> rfl
  | select start stop =>
    simp only [step]
    cases formatSelection session.options start stop session.text with
    | error e => intro text h; cases h
    | ok text => intro text' h; exact Except.ok.inj h
  | setOptions value =>
    simp only [step]
    cases Options.ofJson? value with
    | error e => intro options h; cases h
    | ok options => intro options' h; exact Except.ok.inj h
  | _ => rfl

/-! ## Runs -/

/-- The session after several requests. -/
def after (session : Session) (requests : List Request) : Session :=
  requests.foldl (fun session request => (session.step request).2) session

variable {requests : List Request}

theorem run_cons (session : Session) (request : Request) (requests : List Request) :
    session.run (request :: requests) =
      (session.step request).1 :: (session.step request).2.run requests := rfl

theorem after_cons (session : Session) (request : Request) (requests : List Request) :
    session.after (request :: requests) = (session.step request).2.after requests := rfl

/-- A response in a run was given after the requests before its own. It tells what the session
holds behind it, and if it refuses its request, the session is the one before. -/
theorem of_mem_run {response : Response} (h : response ∈ session.run requests) :
    ∃ before request behind, requests = before ++ request :: behind ∧
      response.Tells (session.after (before ++ [request])) ∧
        (response.Refuses → session.after (before ++ [request]) = session.after before) := by
  induction requests generalizing session with
  | nil => cases h
  | cons request requests ih =>
    rcases List.mem_cons.1 h with rfl | h
    · exact ⟨[], request, requests, rfl, step_tells session request, step_of_refuses⟩
    · obtain ⟨before, request', behind, rfl, htells, hrefuses⟩ := ih h
      exact ⟨request :: before, request', behind, rfl, htells, hrefuses⟩

/-- What each of several requests keeps, all of them keep. -/
theorem after_invariant {P : Session → Prop}
    (hstep : ∀ session, ∀ request ∈ requests, P session → P (session.step request).2)
    (h : P session) : P (session.after requests) := by
  induction requests generalizing session with
  | nil => exact h
  | cons request requests ih =>
    apply ih
    · intro session request' hmem
      exact hstep session request' (List.mem_cons_of_mem request hmem)
    · exact hstep session request List.mem_cons_self h

/-- Only edits change the document. -/
theorem after_text (hedit : ∀ request ∈ requests, ¬ request.Edits) :
    (session.after requests).text = session.text := by
  apply after_invariant (P := fun s => s.text = session.text) _ rfl
  intro s request hmem hs
  generalize hs' : (s.step request).2 = s'
  cases hs' ▸ step_changes s request with
  | nothing | options _ _ | jump _ | search _ _ => exact hs
  | document _ hedits => exact absurd hedits (hedit request hmem)

/-- Only a search and a jump move the cursor. -/
theorem after_cursor (hsearch : ∀ request ∈ requests, ¬ request.Searches)
    (hjump : ∀ position, .seek position ∉ requests) :
    (session.after requests).cursor = session.cursor := by
  apply after_invariant (P := fun s => s.cursor = session.cursor) _ rfl
  intro s request hmem hs
  generalize hs' : (s.step request).2 = s'
  cases hs' ▸ step_changes s request with
  | nothing | document _ _ | options _ _ => exact hs
  | @jump position hrequest => exact absurd (hrequest ▸ hmem) (hjump position)
  | search hsearches _ => exact absurd hsearches (hsearch request hmem)

/-- Options that are in force were in force at the start or have been accepted, and so they stay
valid. -/
theorem after_valid (h : session.options.validate = .ok ()) :
    (session.after requests).options.validate = .ok () := by
  apply after_invariant (P := fun s => s.options.validate = .ok ()) _ h
  intro s request _ hs
  generalize hs' : (s.step request).2 = s'
  cases hs' ▸ step_changes s request with
  | nothing | document _ _ | jump _ | search _ _ => exact hs
  | options _ haccepted =>
    obtain ⟨_, -, -, -, hvalid⟩ := Options.ofJson?_eq_ok_iff.1 haccepted
    exact hvalid

theorem step_format (session : Session) : session.step .format =
    (.formatted (format session.options session.text)
        (reformat? session.options session.text).isSome,
      { session with text := format session.options session.text }) := by
  simp only [step, InsertLayout.format]
  cases reformat? session.options session.text <;> rfl

/-- Formatting a document twice in a row changes nothing more, if column names are left as they
are. -/
theorem step_format_format (hq : session.options.quotes.Plain)
    (hwrap : session.options.columnWrap = none) :
    (session.step .format).2.step .format =
      (.formatted (format session.options session.text) false, (session.step .format).2) := by
  obtain ⟨hformat, hnone⟩ :=
    format_of_settled (format_ofText_format hq (wrapsSoundly_of_none hq hwrap))
  rw [step_format, step_format, hformat, hnone]
  rfl

/-! ## Searches -/

/-- What a search answers when it comes to a statement, or finds none. -/
def answer (options : Options) (request : Request) (span : Option Span) (cursor : Nat) :
    Response :=
  match request with
  | .parseNext => .parsed (span.map fun s => Statement.parse options s.raw) cursor
  | _ => .found span cursor

theorem step_of_searches (hsearch : request.Searches) : session.step request =
    (answer session.advance.2.options request session.advance.1 session.advance.2.cursor,
      session.advance.2) := by
  cases request with
  | next | parseNext => rfl
  | _ => exact hsearch.elim

/-- Searches come to the statements behind the cursor one after another. -/
theorem run_searches_of_foundFrom {t : Text} {options : Options} {start : Nat} {spans : List Span}
    (h : FoundFrom options.quotes t start spans) (hsearch : ∀ request ∈ requests, request.Searches)
    (hlength : requests.length = spans.length) :
    run ⟨t, options, start⟩ requests =
        List.zipWith (fun request span => answer options request (some span) span.stop) requests
          spans ∧
      after ⟨t, options, start⟩ requests =
        ⟨t, options, (spans.getLast?.map Span.stop).getD start⟩ := by
  induction h generalizing requests with
  | last _ =>
    obtain rfl := List.eq_nil_of_length_eq_zero hlength
    exact ⟨rfl, rfl⟩
  | @more start span spans hspan _ ih =>
    cases requests with
    | nil => cases hlength
    | cons request requests =>
      have hstep : step ⟨t, options, start⟩ request =
          (answer options request (some span) span.stop, ⟨t, options, span.stop⟩) := by
        rw [step_of_searches (hsearch request List.mem_cons_self), advance_of_some hspan]
      obtain ⟨hrun, hafter⟩ := ih (fun request' h => hsearch request' (List.mem_cons_of_mem _ h))
        (Nat.succ.inj hlength)
      constructor
      · rw [run_cons, hstep, List.zipWith_cons_cons, hrun]
      · rw [List.getLast?_cons, Option.map_some, Option.getD_some, ← Option.getD_map Span.stop,
          ← hafter, after_cons, hstep]

/-- From the front of a document on, searches come to each of its statements once and in order, also
to those that cannot be parsed, and then find nothing more. -/
theorem run_searches (hfront : session.cursor = 0)
    (hsearch : ∀ request ∈ requests, request.Searches)
    (hlength : requests.length = (ofText session.options.quotes session.text).spans.length) :
    session.run requests =
        List.zipWith (fun request span => answer session.options request (some span) span.stop)
          requests (ofText session.options.quotes session.text).spans ∧
      ∀ request : Request, request.Searches → (session.after requests).step request =
        (answer session.options request none (ofText session.options.quotes session.text).lastStop,
          session.after requests) := by
  obtain ⟨t, options, start⟩ := session
  obtain rfl : start = 0 := hfront
  have hfound := (@foundFrom_iff options.quotes t _).2 rfl
  obtain ⟨hrun, hafter⟩ := run_searches_of_foundFrom hfound hsearch hlength
  refine ⟨hrun, fun request hrequest => ?_⟩
  rw [hafter, step_of_searches hrequest, advance_of_none hfound.next?_eq_none]
  rfl

end Session

end InsertLayout
