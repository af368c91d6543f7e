import RiskRail.Markup.Tokenizer

/-!
# The e-mail of an alert

What `renderAlertEmail` makes of an alert.  Read as HTML, the message has the same tags for every
alert, and the texts that come with the alert are its texts and nothing else.  Of a text HTML
reads a carriage return, alone or in front of a line feed, as a line feed, and a null in the
address of the link as the replacement character; all other characters stay as they are.
-/

namespace RiskRail.Alerts.Rendering

open RiskRail.Javascript Text RiskRail.Markup

/-! ## The message -/

/-- What a mail says the alert comes from. -/
inductive AlertSource where
  | rule
  | onChain
  deriving DecidableEq

/-- What a mail is rendered from. -/
structure AlertEmailInput where
  address : Text
  metricLabel : Text
  comparison : Text
  observed : Text
  threshold : Text
  source : AlertSource
  dashboardUrl : Text
  deriving DecidableEq

/-- A mail in both of its forms. -/
structure RenderedEmail where
  subject : Text
  text : Text
  html : Text
  deriving DecidableEq

/-- `text.replace(/unit/g, replacement)`. -/
def replaceAll (unit : ℕ) (replacement : String) (text : Text) : Text :=
  text.flatMap fun other => if other = unit then ofString replacement else [other]

/-- The four characters with a meaning in HTML are escaped, the ampersand first. -/
def escapeHtml (value : Text) : Text :=
  replaceAll 0x22 "&quot;" (replaceAll 0x3E "&gt;" (replaceAll 0x3C "&lt;"
    (replaceAll 0x26 "&amp;" value)))

/-- A long address without its middle. -/
def AlertEmailInput.short (input : AlertEmailInput) : Text :=
  if 16 < input.address.length then
    input.address.take 7 ++ 0x2026 :: input.address.drop (input.address.length - 5)
  else input.address

/-- The source in words. -/
def AlertSource.text : AlertSource → String
  | .onChain => "your on-chain risk policy"
  | .rule => "a Rivisk alert rule"

/-- The rule that was broken. -/
def AlertEmailInput.subject (input : AlertEmailInput) : Text :=
  ofString "Rivisk: " ++ input.metricLabel ++ 0x20 :: input.comparison ++ 0x20 :: input.threshold

/-- `lines.join('\n')`. -/
def joinLines (lines : List Text) : Text :=
  (lines.intersperse [0x0A]).flatten

/-- The lines of the plain text. -/
def AlertEmailInput.lines (input : AlertEmailInput) : List Text :=
  [input.metricLabel ++ ofString " for " ++ input.short ++ ofString " is now " ++
      input.observed ++ ofString ".",
    [],
    ofString "Rule: alert when " ++ input.metricLabel ++ 0x20 :: input.comparison ++
      0x20 :: input.threshold,
    ofString "Source: " ++ ofString input.source.text,
    [],
    ofString "Review the position: " ++ input.dashboardUrl,
    [],
    ofString "Rivisk is read-only and never moves funds. This is analytics, not",
    ofString "financial advice."]

/-! ### The template between its expressions -/

/-- The page up to the heading. -/
def headHtml : Text :=
  ofString "<!doctype html><html><body style=\"margin:0;background:#07111F;color:#F8FAFC;" ++
  ofString "font-family:ui-sans-serif,system-ui,sans-serif\">\n" ++
  ofString "<div style=\"max-width:560px;margin:0 auto;padding:32px 24px\">\n" ++
  ofString "  <p style=\"margin:0 0 24px;font-size:13px;letter-spacing:.12em;" ++
  ofString "text-transform:uppercase;color:#94A3B8\">Rivisk alert</p>\n" ++
  ofString "  <h1 style=\"margin:0 0 16px;font-size:22px;line-height:1.3;font-weight:600\">"

/-- From the heading to the figure. -/
def figureHtml : Text :=
  ofString "</h1>\n" ++
  ofString "  <p style=\"margin:0 0 20px;font-size:15px;line-height:1.7;color:#94A3B8\">\n" ++
  ofString "    "

/-- From the figure to the address. -/
def forHtml : Text :=
  ofString " for <span style=\"color:#F8FAFC\">"

/-- From the address to the observed value. -/
def nowHtml : Text :=
  ofString "</span>\n" ++ ofString "    is now <span style=\"color:#F8FAFC\">"

/-- From the observed value to the source. -/
def ruleHtml : Text :=
  ofString "</span>.\n" ++
  ofString "  </p>\n" ++
  ofString "  <p style=\"margin:0 0 24px;font-size:13px;line-height:1.7;color:#94A3B8\">\n" ++
  ofString "    Triggered by "

/-- From the source to the link. -/
def linkHtml : Text :=
  ofString ".\n" ++
  ofString "  </p>\n" ++
  ofString "  "

/-- The style of the link. -/
def linkStyleHtml : Text :=
  ofString "display:inline-block;background:#22D3EE;color:#07111F;text-decoration:none;" ++
  ofString "font-weight:600;font-size:14px;padding:11px 18px;border-radius:10px"

/-- The rest of the page. -/
def footHtml : Text :=
  ofString "Review the position</a>\n" ++
  ofString "  <p style=\"margin:28px 0 0;font-size:12px;line-height:1.7;color:#64748B\">\n" ++
  ofString "    Rivisk is read-only and never moves funds. Metrics are estimates derived\n" ++
  ofString "    from on-chain state and external price sources. This is not financial advice.\n" ++
  ofString "  </p>\n" ++
  ofString "</div></body></html>"

/-- The page, with every value that is put in escaped. -/
def AlertEmailInput.html (input : AlertEmailInput) : Text :=
  headHtml ++
    (escapeHtml input.metricLabel ++ ofString " " ++ escapeHtml input.comparison ++
      ofString " " ++ escapeHtml input.threshold) ++
    figureHtml ++ escapeHtml input.metricLabel ++ forHtml ++ escapeHtml input.short ++
    nowHtml ++ escapeHtml input.observed ++
    ruleHtml ++ ofString input.source.text ++
    linkHtml ++
    (ofString "<a href=\"" ++ escapeHtml input.dashboardUrl ++
      (ofString "\" style=\"" ++ linkStyleHtml ++ ofString "\">")) ++
    footHtml

/-- The mail. -/
def renderAlertEmail (input : AlertEmailInput) : RenderedEmail where
  subject := input.subject
  text := joinLines input.lines
  html := input.html

/-! ## What it is read as -/

/-- A start tag with a style. -/
def opened (name : String) (style : Text) : List Token :=
  [.tag ⟨false, ofString name, [(ofString "style", style)]⟩]

/-- An end tag. -/
def closed (name : String) : List Token :=
  [.tag ⟨true, ofString name, []⟩]

/-- Text as character tokens. -/
def shown (text : String) : List Token :=
  characters (ofString text)

/-- The doctype and the start of the page. -/
def start : List Token :=
  [.declaration (ofString "doctype html"), .tag ⟨false, ofString "html", []⟩]

/-- The tokens up to the heading. -/
def head : List Token :=
  start ++
  opened "body" (ofString "margin:0;background:#07111F;color:#F8FAFC;" ++
    ofString "font-family:ui-sans-serif,system-ui,sans-serif") ++ shown "\n" ++
  opened "div" (ofString "max-width:560px;margin:0 auto;padding:32px 24px") ++ shown "\n  " ++
  opened "p" (ofString "margin:0 0 24px;font-size:13px;letter-spacing:.12em;" ++
    ofString "text-transform:uppercase;color:#94A3B8") ++ shown "Rivisk alert" ++ closed "p" ++
  shown "\n  " ++
  opened "h1" (ofString "margin:0 0 16px;font-size:22px;line-height:1.3;font-weight:600")

/-- The tokens from the heading to the figure. -/
def figure : List Token :=
  closed "h1" ++ shown "\n  " ++
  opened "p" (ofString "margin:0 0 20px;font-size:15px;line-height:1.7;color:#94A3B8") ++
  shown "\n    "

/-- The start of a highlighted value. -/
def span : List Token :=
  opened "span" (ofString "color:#F8FAFC")

/-- The tokens from the observed value to the source. -/
def rule : List Token :=
  closed "span" ++ shown ".\n  " ++ closed "p" ++ shown "\n  " ++
  opened "p" (ofString "margin:0 0 24px;font-size:13px;line-height:1.7;color:#94A3B8") ++
  shown "\n    Triggered by "

/-- The start of the link. -/
def link (dashboardUrl : Text) : List Token :=
  [.tag ⟨false, ofString "a",
    [(ofString "href", dashboardUrl), (ofString "style", linkStyleHtml)]⟩]

/-- The tokens after the link's start. -/
def foot : List Token :=
  shown "Review the position" ++ closed "a" ++ shown "\n  " ++
  opened "p" (ofString "margin:28px 0 0;font-size:12px;line-height:1.7;color:#64748B") ++
  shown "\n    Rivisk is read-only and never moves funds. Metrics are estimates derived" ++
  shown "\n    from on-chain state and external price sources. This is not financial advice." ++
  shown "\n  " ++
  closed "p" ++ shown "\n" ++ closed "div" ++ closed "body" ++ closed "html"

/-- A text of the alert, as HTML reads it. -/
def given (text : Text) : List Token :=
  characters (newlines text)

/-- The message with the texts of the alert and the address of the link. -/
def page (input : AlertEmailInput) (href : Text) : List Token :=
  head ++ (given input.metricLabel ++ (shown " " ++ (given input.comparison ++ (shown " " ++
    (given input.threshold ++ (figure ++ (given input.metricLabel ++ ((shown " for " ++ span) ++
    (given input.short ++ ((closed "span" ++ shown "\n    is now " ++ span) ++
    (given input.observed ++ (rule ++ (shown input.source.text ++
    ((shown ".\n  " ++ closed "p" ++ shown "\n  ") ++ (link href ++ foot)))))))))))))))

/-! ### The template as tokens -/

/-- What the template writes that does not come from the alert. -/
theorem write_template :
    write head = headHtml ∧ write figure = figureHtml ∧ write (shown " for " ++ span) = forHtml ∧
      write (closed "span" ++ shown "\n    is now " ++ span) = nowHtml ∧
      write rule = ruleHtml ∧ write (shown ".\n  " ++ closed "p" ++ shown "\n  ") = linkHtml ∧
      escape linkStyleHtml = linkStyleHtml ∧ write foot = footHtml := by
  simp only [head, headHtml, start, figure, figureHtml, forHtml, nowHtml, rule, ruleHtml, linkHtml,
    linkStyleHtml, foot, footHtml, span, opened, shown, closed]
  repeat rw [ofString_ofList]
  decide +kernel

theorem write_link (dashboardUrl : Text) :
    write (link dashboardUrl) = ofString "<a href=\"" ++ escape dashboardUrl ++
      (ofString "\" style=\"" ++ linkStyleHtml ++ ofString "\">") := by
  obtain ⟨-, -, -, -, -, -, plain, -⟩ := write_template
  have front : ofString "<a href=\"" =
      0x3C :: (ofString "a" ++ 0x20 :: (ofString "href" ++ [0x3D, 0x22])) := by decide
  have middle : ofString "\" style=\"" =
      0x22 :: 0x20 :: (ofString "style" ++ [0x3D, 0x22]) := by decide
  have back : ofString "\">" = [0x22, 0x3E] := by decide
  rw [front, middle, back]
  simp [link, write, Token.write, writeAttribute, plain]

/-! ### Escaping -/

theorem replaceAll_append (unit : ℕ) (replacement : String) (front back : Text) :
    replaceAll unit replacement (front ++ back) =
      replaceAll unit replacement front ++ replaceAll unit replacement back :=
  List.flatMap_append

theorem escapeHtml_singleton (unit : ℕ) : escapeHtml [unit] = escapeUnit unit := by
  rcases markup_cases unit with rfl | rfl | rfl | rfl | plain
  · decide
  · decide
  · decide
  · decide
  · rw [escapeUnit_of_plain plain]
    simp [escapeHtml, replaceAll, plain]

/-- Four replacements after one another are one: none of them makes what a later one replaces. -/
theorem escapeHtml_eq_escape (value : Text) : escapeHtml value = escape value := by
  induction value with
  | nil => rfl
  | cons unit value ih =>
      have split : escapeHtml ([unit] ++ value) = escapeHtml [unit] ++ escapeHtml value := by
        simp only [escapeHtml, replaceAll_append]
      rw [← List.singleton_append, split, escapeHtml_singleton, ih]
      rfl

theorem plain_source (source : AlertSource) :
    escape (ofString source.text) = ofString source.text := by
  cases source <;> decide

/-! ### Line ends -/

/-- The template has no carriage return, and what follows a text of the alert begins with no
line feed. -/
theorem separates_template :
    0x0D ∉ headHtml ∧ separates (ofString " ") = true ∧ separates figureHtml = true ∧
      separates forHtml = true ∧ separates nowHtml = true ∧ separates ruleHtml = true ∧
      0x0D ∉ linkHtml ∧ 0x0D ∉ ofString "<a href=\"" ∧
      separates (ofString "\" style=\"" ++ (linkStyleHtml ++ (ofString "\">" ++ footHtml))) =
        true := by
  simp only [headHtml, figureHtml, forHtml, nowHtml, ruleHtml, linkHtml, linkStyleHtml, footHtml]
  repeat rw [ofString_ofList]
  decide +kernel

/-- With its line ends as line feeds the message is the page. -/
theorem newlines_html (input : AlertEmailInput) :
    newlines input.html = write (page input (newlines input.dashboardUrl)) := by
  have blank : write (shown " ") = ofString " " := by decide
  have source : write (shown input.source.text) = ofString input.source.text := by
    rw [shown, write_characters, plain_source]
  have sourced : 0x0D ∉ ofString input.source.text := by
    cases input.source <;> decide
  obtain ⟨front, figures, before, now, rules, after, -, back⟩ := write_template
  obtain ⟨headPlain, blankApart, figureApart, forApart, nowApart, ruleApart, linkPlain, hrefPlain,
    footApart⟩ := separates_template
  have ended := newlines_append_of_separates footApart (escape input.dashboardUrl) []
  rw [List.append_nil, show newlines [] = [] from rfl, List.append_nil] at ended
  simp only [AlertEmailInput.html, page, given, List.append_assoc, write_append, write_characters,
    escapeHtml_eq_escape, blank, source, front, figures, rules, write_link, back]
  rw [newlines_append headPlain, newlines_append_of_separates blankApart,
    newlines_append_of_separates blankApart, newlines_append_of_separates figureApart,
    newlines_append_of_separates forApart, newlines_append_of_separates nowApart,
    newlines_append_of_separates ruleApart, newlines_append sourced, newlines_append linkPlain,
    newlines_append hrefPlain, ended]
  simp only [newlines_escape, ← before, ← now, ← after, write_append, List.append_assoc]

theorem seen_characters (text : Text) : (characters text).map Token.seen = characters text := by
  rw [characters, List.map_map]
  rfl

theorem seen_closed (name : String) : (closed name).map Token.seen = closed name :=
  rfl

/-- Of the template nothing is read otherwise. -/
theorem seen_template :
    head.map Token.seen = head ∧ figure.map Token.seen = figure ∧ span.map Token.seen = span ∧
      rule.map Token.seen = rule ∧ linkStyleHtml.map valueUnit = linkStyleHtml ∧
      foot.map Token.seen = foot := by
  simp only [head, start, figure, rule, linkStyleHtml, foot, span, opened, shown, closed]
  repeat rw [ofString_ofList]
  decide +kernel

/-- Only the address of the link may be read otherwise. -/
theorem seen_page (input : AlertEmailInput) (href : Text) :
    (page input href).map Token.seen = page input (href.map valueUnit) := by
  obtain ⟨front, figures, spans, rules, style, back⟩ := seen_template
  have linked : (link href).map Token.seen = link (href.map valueUnit) := by
    simp [link, Token.seen, readAttribute, style]
  simp only [page, given, shown, List.map_append, seen_characters, seen_closed, front, figures,
    spans, rules, linked, back]

/-! ## No alert changes the markup -/

/-- The names of the template. -/
def names : List String :=
  ["html", "body", "div", "p", "h1", "span", "a", "style", "href"]

theorem isName_ofString {name : String} (listed : name ∈ names) : IsName (ofString name) := by
  have units : ∀ name ∈ names, ofString name ≠ [] ∧ (ofString name).all isNameUnit = true := by
    decide
  exact ⟨(units name listed).1, List.all_eq_true.mp (units name listed).2⟩

theorem wellFormed_opened {name : String} (style : Text) (listed : name ∈ names) :
    Markup.WellFormed (opened name style) := by
  rw [Markup.WellFormed, opened, List.forall_mem_singleton]
  exact ⟨isName_ofString listed, List.forall_mem_singleton.mpr (isName_ofString (by decide))⟩

theorem wellFormed_closed {name : String} (listed : name ∈ names) :
    Markup.WellFormed (closed name) := by
  rw [Markup.WellFormed, closed, List.forall_mem_singleton]
  exact ⟨isName_ofString listed, List.forall_mem_nil _⟩

theorem wellFormed_link (dashboardUrl : Text) : Markup.WellFormed (link dashboardUrl) := by
  rw [Markup.WellFormed, link, List.forall_mem_singleton]
  exact ⟨isName_ofString (by decide), List.forall_mem_cons.mpr
    ⟨isName_ofString (by decide), List.forall_mem_singleton.mpr (isName_ofString (by decide))⟩⟩

theorem wellFormed_start : Markup.WellFormed start := by
  have inside : 0x3E ∉ ofString "doctype html" ∧ 0 ∉ ofString "doctype html" := by decide
  rw [Markup.WellFormed, start, List.forall_mem_cons, List.forall_mem_singleton]
  exact ⟨inside, isName_ofString (by decide), List.forall_mem_nil _⟩

theorem wellFormed_page (input : AlertEmailInput) (href : Text) :
    Markup.WellFormed (page input href) := by
  simp +decide [page, given, head, figure, span, rule, foot, shown, wellFormed_start,
    wellFormed_opened, wellFormed_closed, wellFormed_link]

/-- For every alert the message is read as the same tags, with the texts of the alert between them
and the address of the dashboard as the address of the link: character by character, but for
carriage returns and for a null in the address. -/
theorem tokenize_renderAlertEmail (input : AlertEmailInput) :
    tokenize (renderAlertEmail input).html = some (page input (readValue input.dashboardUrl)) ∧
      ∀ text, 0x0D ∉ text →
        given text = characters text ∧ (0 ∉ text → readValue text = text) := by
  constructor
  · rw [readValue, ← seen_page]
    exact tokenize_of_newlines (wellFormed_page input _) (newlines_html input)
  · intro text plain
    exact ⟨congrArg characters (newlines_of_plain plain), readValue_of_plain plain⟩

end RiskRail.Alerts.Rendering
