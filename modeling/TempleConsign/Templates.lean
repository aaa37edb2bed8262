import Mathlib.Data.List.TakeWhile
import TempleConsign.Database

/-!
# Notification templates

Model of `src/api/services/notification_templates.py` (`_render`,
`render_with_overrides`) and of the registered templates that some service
renders. A registered template is the sequence of its texts and `{{ … }}`
placeholders, which Jinja2 puts out one after the other. An administrator's
override is any Jinja2 source, so what it renders to is a parameter.

The registry also holds templates that nothing renders; they are left out.

Results:
* `strip_eq_empty_iff`: only a blank text is stripped to nothing.
* `strip_renderPieces_ne_empty`: literal text is put out as it is.
* `render_blank_iff`: an override is what makes a subject or body blank.
-/

namespace TempleConsign

/-! ## Jinja2 -/

/-- The values a template is rendered with. -/
abbrev Variables := List (String × String)

/-- A part of a registered template: literal text, `{{ name }}`, or
    `{{ name|safe }}`. -/
inductive Piece
  | text (s : String)
  | var (name : String)
  | safe (name : String)

/-- `markupsafe.escape` of one character. -/
def escapeChar (c : Char) : List Char :=
  if c = '&' then "&amp;".toList
  else if c = '>' then "&gt;".toList
  else if c = '<' then "&lt;".toList
  else if c = '\'' then "&#39;".toList
  else if c = '"' then "&#34;".toList
  else [c]

/-- `markupsafe.escape`. -/
def escape (s : String) : String := String.ofList (s.toList.flatMap escapeChar)

/-- `StrictUndefined`: an undeclared variable raises, here `none`. -/
def Piece.render (autoescape : Bool) (vars : Variables) : Piece → Option String
  | .text s => some s
  | .var name => (vars.lookup name).map fun v => if autoescape then escape v else v
  | .safe name => vars.lookup name

def renderPieces (autoescape : Bool) (vars : Variables) : List Piece → Option String
  | [] => some ""
  | p :: ps => do
    let s ← p.render autoescape vars
    let rest ← renderPieces autoescape vars ps
    some (s ++ rest)

/-- `env.from_string(source).render(**variables)` for a source that an
    administrator wrote, with and without autoescape; `none` when it raises. -/
abbrev Jinja := Bool → String → Variables → Option String

/-! ## The registry -/

/-- The channels of the modelled templates; SMS bodies are not escaped. -/
inductive TemplateChannel
  | email
  | sms
  deriving DecidableEq

/-- `Template` (line 77). -/
structure Template where
  name : String
  channel : TemplateChannel
  subjectTemplate : List Piece
  bodyTemplate : List Piece

/-- `RenderedTemplate` (line 69). -/
structure Rendered where
  subject : Option String
  body : String

/-- A row of `notification_template_overrides`. -/
structure Override where
  subjectMd : Option String
  bodyMd : String

/-- The rows of `notification_template_overrides`, by name. -/
abbrev Overrides := String → Option Override

/-- The source that is rendered: the override's, or the registered one. -/
def renderSource (jinja : Jinja) (autoescape : Bool) (vars : Variables) (override : Option String)
    (pieces : List Piece) : Option String :=
  match override with
  | some source => (jinja autoescape source vars).map strip
  | none => (renderPieces autoescape vars pieces).map strip

/-- `_render` (line 146). -/
def Template.render (jinja : Jinja) (t : Template) (vars : Variables)
    (subjectOverride bodyOverride : Option String) : Option Rendered :=
  match t.channel with
  | .email => do
    let body ← renderSource jinja true vars bodyOverride t.bodyTemplate
    let subject ← renderSource jinja true vars subjectOverride t.subjectTemplate
    some ⟨some subject, body⟩
  | .sms => do
    let body ← renderSource jinja false vars bodyOverride t.bodyTemplate
    some ⟨none, body⟩

/-- `render_with_overrides` (line 122). -/
def renderWithOverrides (jinja : Jinja) (overrides : Overrides) (t : Template)
    (vars : Variables) : Option Rendered :=
  let override := overrides t.name
  t.render jinja vars (override.bind Override.subjectMd) (override.map Override.bodyMd)

/-- `STATUS_UPDATE` (line 172). -/
def statusUpdateTemplate : Template where
  name := "status_update"
  channel := .email
  subjectTemplate := [.var "to_status_display", .text " — ", .var "reference_number"]
  bodyTemplate :=
    [.text "<p>Hi ", .var "first_name",
      .text ",</p><p>The status of your equipment submission (<strong>", .var "reference_number",
      .text "</strong>) has changed to <strong>", .var "to_status", .text "</strong>.</p>",
      .safe "note_html",
      .text ("<p>You can see the full timeline from your customer portal.</p>" ++
        "<p>— The Temple Heavy Equipment team</p>")]

/-- `SALES_REP_APPROVED_PENDING_ESIGN` (line 199). -/
def salesRepApprovedPendingEsign : Template where
  name := "sales_rep_approved_pending_esign"
  channel := .email
  subjectTemplate :=
    [.text "[Approved] Appraisal for ", .var "reference_number", .text " — Ready for eSign"]
  bodyTemplate :=
    [.text "<p>Hi ", .var "first_name",
      .text ",</p><p>The manager has approved the appraisal for <strong>", .var "reference_number",
      .text "</strong> (", .var "make_model",
      .text ("). The record is now <strong>ready for eSign</strong>.</p>" ++
        "<p>Open the record in the sales dashboard to start the eSign flow.</p>")]

/-- `SALES_REP_ESIGNED_PENDING_PUBLISH` (line 218). -/
def salesRepEsignedPendingPublish : Template where
  name := "sales_rep_esigned_pending_publish"
  channel := .email
  subjectTemplate := [.text "[Signed] ", .var "reference_number", .text " ready to publish"]
  bodyTemplate :=
    [.text "<p>Hi ", .var "first_name",
      .text ",</p><p>The customer has signed the consignment agreement for <strong>",
      .var "reference_number", .text "</strong> (", .var "make_model",
      .text ("). The listing is <strong>ready to publish</strong>.</p>" ++
        "<p>Open the record in the sales dashboard and tap " ++
        "<em>Publish Listing</em> when you're ready.</p>")]

/-- `SALES_REP_GENERIC_STATUS` (line 238). -/
def salesRepGenericStatus : Template where
  name := "sales_rep_generic_status"
  channel := .email
  subjectTemplate := [.text "Status update — ", .var "reference_number"]
  bodyTemplate :=
    [.text "<p>Hi ", .var "first_name", .text ",</p><p>Record <strong>", .var "reference_number",
      .text "</strong> moved to <strong>", .var "to_status", .text "</strong>.</p>"]

/-- `SALES_REP_APPROVED_PENDING_ESIGN_SMS` (line 255). -/
def salesRepApprovedPendingEsignSms : Template where
  name := "sales_rep_approved_pending_esign_sms"
  channel := .sms
  subjectTemplate := []
  bodyTemplate :=
    [.text "Manager approved ", .var "reference_number", .text ". Log in to initiate eSign."]

/-- `SALES_REP_ESIGNED_PENDING_PUBLISH_SMS` (line 267). -/
def salesRepEsignedPendingPublishSms : Template where
  name := "sales_rep_esigned_pending_publish_sms"
  channel := .sms
  subjectTemplate := []
  bodyTemplate :=
    [.text "TempleHE: customer signed ", .var "reference_number", .text ". Ready to publish."]

/-- `SALES_REP_GENERIC_STATUS_SMS` (line 279). -/
def salesRepGenericStatusSms : Template where
  name := "sales_rep_generic_status_sms"
  channel := .sms
  subjectTemplate := []
  bodyTemplate :=
    [.text "TempleHE: ", .var "reference_number", .text " moved to ", .var "to_status", .text "."]

/-- `RECORD_LOCK_OVERRIDDEN_EMAIL` (line 292). -/
def recordLockOverridden : Template where
  name := "record_lock_overridden"
  channel := .email
  subjectTemplate := [.text "Your editing lock on ", .var "reference", .text " was released"]
  bodyTemplate :=
    [.text "<p>Hi ", .var "first_name", .text ",</p><p>Your editing lock on <strong>",
      .var "reference", .text "</strong> was released by ", .var "manager_first_name",
      .text (" so the record could be edited.</p>" ++
        "<p>Reopen the record from the sales dashboard if you still need to make changes.</p>")]

/-- `RECORD_LOCK_OVERRIDDEN_SMS` (line 311). -/
def recordLockOverriddenSms : Template where
  name := "record_lock_overridden_sms"
  channel := .sms
  subjectTemplate := []
  bodyTemplate :=
    [.text "TempleHE: your editing lock on ", .var "reference", .text " was released by ",
      .var "manager_first_name", .text "."]

/-- The registered templates that some service renders. -/
def renderedTemplates : List Template :=
  [statusUpdateTemplate, salesRepApprovedPendingEsign, salesRepEsignedPendingPublish,
    salesRepGenericStatus, salesRepApprovedPendingEsignSms, salesRepEsignedPendingPublishSms,
    salesRepGenericStatusSms, recordLockOverridden, recordLockOverriddenSms]

/-! ## Blank texts -/

theorem strip_eq_empty_iff (s : String) : strip s = "" ↔ ∀ c ∈ s.toList, isSpace c = true := by
  unfold strip
  rw [← String.toList_eq_nil_iff, String.toList_ofList, List.reverse_eq_nil_iff,
    List.dropWhile_eq_nil_iff]
  simp only [List.mem_reverse]
  constructor
  · intro h c hc
    have hsplit := List.takeWhile_append_dropWhile (p := isSpace) (l := s.toList)
    rw [← hsplit, List.mem_append] at hc
    rcases hc with hc | hc
    · exact List.mem_takeWhile_imp hc
    · exact h c hc
  · exact fun h c hc => h c ((List.dropWhile_sublist _).subset hc)

/-- A literal text that is not blank. -/
def Piece.hasText : Piece → Bool
  | .text s => s.toList.any fun c => !isSpace c
  | .var _ | .safe _ => false

/-- The literal texts of a template are put out as they are. -/
theorem strip_renderPieces_ne_empty {autoescape : Bool} {vars : Variables} {pieces : List Piece}
    {s : String} (htext : pieces.any Piece.hasText = true)
    (h : renderPieces autoescape vars pieces = some s) : strip s ≠ "" := by
  rw [Ne, strip_eq_empty_iff]
  intro hblank
  induction pieces generalizing s with
  | nil => cases htext
  | cons p ps ih =>
    simp only [renderPieces, Option.bind_eq_bind, Option.bind_eq_some_iff] at h
    obtain ⟨out, hout, rest, hrest, h⟩ := h
    cases h
    rw [String.toList_append] at hblank
    rw [List.any_cons, Bool.or_eq_true] at htext
    rcases htext with hp | hps
    · cases p with
      | text t =>
        cases hout
        obtain ⟨c, hc, hsp⟩ := List.any_eq_true.mp hp
        have := hblank c (List.mem_append_left _ hc)
        rw [this] at hsp
        cases hsp
      | var name => cases hp
      | safe name => cases hp
    · exact ih hps hrest fun c hc => hblank c (List.mem_append_right _ hc)

/-- A template with text of its own in its body and, for an email, its
    subject. -/
def Template.hasText (t : Template) : Bool :=
  t.bodyTemplate.any Piece.hasText &&
    (t.channel = .sms || t.subjectTemplate.any Piece.hasText)

theorem renderedTemplates_hasText : ∀ t ∈ renderedTemplates, t.hasText = true := by
  decide

/-- The administrator's body source renders to nothing. -/
def BlankBody (jinja : Jinja) (overrides : Overrides) (t : Template) (vars : Variables) : Prop :=
  ∃ o s, overrides t.name = some o ∧ jinja (t.channel = .email) o.bodyMd vars = some s ∧
    strip s = ""

/-- The administrator's subject source renders to nothing. -/
def BlankSubject (jinja : Jinja) (overrides : Overrides) (t : Template) (vars : Variables) : Prop :=
  ∃ o source s, overrides t.name = some o ∧ o.subjectMd = some source ∧
    jinja true source vars = some s ∧ strip s = ""

variable {jinja : Jinja} {overrides : Overrides} {t : Template} {vars : Variables}

/-- A rendered source is blank only when it is an override. -/
theorem renderSource_blank_iff {autoescape : Bool} {override : Option String} {pieces : List Piece}
    {s : String} (htext : pieces.any Piece.hasText = true)
    (h : renderSource jinja autoescape vars override pieces = some s) :
    s = "" ↔ ∃ source r, override = some source ∧ jinja autoescape source vars = some r ∧
      strip r = "" := by
  unfold renderSource at h
  cases override with
  | none =>
    obtain ⟨out, hout, rfl⟩ := Option.map_eq_some_iff.mp h
    constructor
    · intro hs
      exact absurd hs (strip_renderPieces_ne_empty htext hout)
    · rintro ⟨_, _, hsome, -⟩
      cases hsome
  | some source =>
    obtain ⟨out, hout, rfl⟩ := Option.map_eq_some_iff.mp h
    constructor
    · intro hs
      exact ⟨source, out, rfl, hout, hs⟩
    · rintro ⟨_, r, hsome, hr, hblank⟩
      cases hsome
      rw [hout] at hr
      cases hr
      exact hblank

/-- **An override is what makes a rendered text blank**: the registered texts
    never are. -/
theorem render_blank_iff (htext : t.hasText = true) {r : Rendered}
    (h : renderWithOverrides jinja overrides t vars = some r) :
    (r.body = "" ↔ BlankBody jinja overrides t vars) ∧
    (t.channel = .email →
      ∃ subject, r.subject = some subject ∧
        (subject = "" ↔ BlankSubject jinja overrides t vars)) := by
  simp only [Template.hasText, Bool.and_eq_true, Bool.or_eq_true, decide_eq_true_eq] at htext
  obtain ⟨hbody, hsubject⟩ := htext
  have hbb : ∀ {autoescape : Bool} {body : String}, autoescape = decide (t.channel = .email) →
      renderSource jinja autoescape vars ((overrides t.name).map Override.bodyMd) t.bodyTemplate =
        some body → (body = "" ↔ BlankBody jinja overrides t vars) := by
    rintro _ body rfl hr
    rw [renderSource_blank_iff hbody hr]
    constructor
    · rintro ⟨source, s, hsource, hs, hblank⟩
      obtain ⟨o, ho, rfl⟩ := Option.map_eq_some_iff.mp hsource
      exact ⟨o, s, ho, hs, hblank⟩
    · rintro ⟨o, s, ho, hs, hblank⟩
      exact ⟨o.bodyMd, s, by rw [ho]; rfl, hs, hblank⟩
  unfold renderWithOverrides Template.render at h
  cases hch : t.channel with
  | email =>
    simp only [hch, Option.bind_eq_bind, Option.bind_eq_some_iff] at h
    obtain ⟨body, hb, subject, hs, h⟩ := h
    cases h
    refine ⟨hbb (by rw [hch]; rfl) hb, fun _ => ⟨subject, rfl, ?_⟩⟩
    have hsub : t.subjectTemplate.any Piece.hasText = true := by
      rcases hsubject with hsms | hsub
      · rw [hch] at hsms
        cases hsms
      · exact hsub
    rw [renderSource_blank_iff hsub hs]
    constructor
    · rintro ⟨source, s, hsource, hs, hblank⟩
      obtain ⟨o, ho, hmd⟩ := Option.bind_eq_some_iff.mp hsource
      exact ⟨o, source, s, ho, hmd, hs, hblank⟩
    · rintro ⟨o, source, s, ho, hmd, hs, hblank⟩
      exact ⟨source, s, by rw [ho]; exact hmd, hs, hblank⟩
  | sms =>
    simp only [hch, Option.bind_eq_bind, Option.bind_eq_some_iff] at h
    obtain ⟨body, hb, h⟩ := h
    cases h
    refine ⟨hbb (by rw [hch]; rfl) hb, fun hemail => ?_⟩
    cases hemail

end TempleConsign
