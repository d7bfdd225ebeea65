/-
  Rpy.Queue.LogSafety
  ───────────────────
  **NO ERROR MESSAGE CARRIES A CONFIGURED SECRET** (`app/log_safety.py`).

  The secrets are taken out one after another, the longest first, and then
  four patterns take out what looks like a secret.  What is put in for them
  stands between two brackets, so that no secret without brackets comes about
  at its edges; the suffix of a shortened message begins with a character no
  secret has.

    • `configuredSecretValues`    — `_configured_secret_values`,
    • `sanitizeErrorMessage`      — `sanitize_error_message`,
    • `Concealable`               — what is asked of a secret,
    • `infix_of_rewriteCredentials` — the four patterns only put in the mark,
    • `not_infix_redactSecrets`   — no secret is left by the replacements,
    • `not_infix_sanitizeErrorMessage` — **nor in the message**.
-/
import Rpy.Foundation.Redaction
import Rpy.Summaries.Validation

namespace Rpy.Queue

open Rpy.Foundation
open Regex
open Rpy.Summaries.Validation (word spaces gap)

/-! ## §1. The secrets. -/

/-- `REDACTED` -/
def redacted : String := "[REDACTED]"

/-- `MAX_ERROR_MESSAGE_CHARS` -/
def maxErrorMessageChars : Int := 2000

/-- `_SECRET_ENV_NAMES` -/
def secretEnvNames : List String :=
  ["ANTHROPIC_API_KEY", "OPENAI_API_KEY", "JUDIT_API_KEY", "DATAJUD_API_KEY", "COHERE_API_KEY",
    "LANGFUSE_SECRET_KEY", "JUDIT_WEBHOOK_TOKEN", "RPY_BEARER_TOKENS", "RPY_DEMO_BEARER_TOKEN",
    "RPY_OPS_TOKEN", "POSTGRES_PASSWORD", "DATABASE_URL", "MIGRATION_DATABASE_URL",
    "API_DATABASE_URL", "WORKER_DATABASE_URL", "SCHEDULER_DATABASE_URL", "BACKUP_DATABASE_URL"]

/-- The order in which a `set` of texts is gone through, which is not the same
in every process. -/
structure SetOrder where
  /-- `list(set(values))` -/
  list : List String → List String
  nodup : ∀ values, (list values).Nodup
  mem_list : ∀ values s, s ∈ list values ↔ s ∈ values

/-- The order in which the values were given. -/
def SetOrder.given : SetOrder where
  list := List.dedup
  nodup := List.nodup_dedup
  mem_list := fun _ _ => List.mem_dedup

/-- The process the messages are written in. -/
structure LogEnvironment extends Unicode where
  /-- `os.environ.get(name)` -/
  environ : String → Option String
  order : SetOrder

section Secrets

variable (u : LogEnvironment)

/-- `_configured_bearer_token_keys`; only the keys are looked at, so that any
value does for a number that is not finite. -/
def configuredBearerTokenKeys (value : String) : Except Json.PlainError (List String) :=
  match Json.loadsPlain u.readFloat .null u.recursionLimit value.toList with
  | .error .decode => .ok []
  | .error e => .error e
  | .ok (.obj members) => .ok ((members.map Prod.fst).filter fun token => 4 ≤ token.length)
  | .ok _ => .ok []

/-- One round of the loop of `_configured_secret_values`. -/
def secretsNamed (name : String) : Except Json.PlainError (List String) :=
  match u.environ name with
  | none => .ok []
  | some value =>
      if value.length < 4 then .ok []
      else if name = "RPY_BEARER_TOKENS" then
        (configuredBearerTokenKeys u value).map fun keys => value :: keys
      else .ok [value]

/-- `_configured_secret_values` -/
def configuredSecretValues : Except Json.PlainError (List String) := do
  let values ← secretEnvNames.mapM (secretsNamed u)
  return (u.order.list values.flatten).mergeSort fun a b => decide (b.length ≤ a.length)

end Secrets

/-! ## §2. The patterns. -/

section Patterns

variable (u : Unicode)

/-- `[^…\s]` -/
def noneOfNorSpace (s : String) : Regex :=
  let members := s.toList
  .char fun c => !members.contains c && !u.isSpace c

/-- `_URI_CREDENTIALS_RE` -/
def uriCredentialsPattern : Regex :=
  cat [.group "scheme" (cat [.char Char.isAlpha,
      Regex.star (.char fun c => c.isAlphanum || c == '+' || c == '.' || c == '-'), text "://"]),
    .group "user" (plus (noneOfNorSpace u "/:@")), only ':',
    .group "secret" (plus (noneOfNorSpace u "/@")), only '@']

/-- `_AUTHORIZATION_RE` -/
def authorizationPattern : Regex :=
  cat [.group "1" (cat [word u "authorization", spaces u, set ":=", spaces u,
      oneOf (["bearer", "apikey", "basic", "token", "digest", "negotiate", "oauth"].map (word u)),
      gap u]),
    .group "2" (plus (noneOfNorSpace u ",;"))]

/-- The secret of `_STRUCTURED_SECRET_RE` between two quotes, or two empty
texts (`(?P=quote)` is what `(?P<quote>["']?)` has read). -/
def quotedSecret (quote : Regex) : Regex :=
  cat [.group "quote" quote, .group "secret" (plus (noneOfNorSpace u "\"',;&\x7d]")), quote]

/-- `_STRUCTURED_SECRET_RE` -/
def structuredSecretPattern : Regex :=
  cat [.group "prefix" (cat [opt (set "\"'"),
      oneOf [cat [word u "api", opt (set "_-"), word u "key"], word u "token",
        cat [word u "access", opt (set "_-"), word u "token"], word u "password",
        word u "secret"],
      opt (set "\"'"), spaces u, set "=:", spaces u]),
    oneOf ([only '"', only '\'', .empty].map (quotedSecret u))]

/-- `[a-zA-Z0-9_-]` -/
def keyChar : Regex := .char fun c => c.isAlphanum || c == '_' || c == '-'

/-- `_API_KEY_TOKEN_RE` -/
def apiKeyTokenPattern : Regex :=
  cat [.boundary u.isWord,
    .alt (cat [text "sk_", .alt (text "live") (text "test"), only '_', plus keyChar])
      (cat [text "sk-", .rep keyChar 12 none true]),
    .boundary u.isWord]

end Patterns

/-! ## §3. The message. -/

/-- `match.group(name)` of a group that takes part in every match. -/
def groupText (m : Match) (name : String) : List Char := (m.group name).getD []

/-- The loop of `sanitize_error_message` over the secrets. -/
def redactSecrets (secrets : List String) (text : List Char) : List Char :=
  secrets.foldl (fun text secret => replaceAll secret.toList redacted.toList text) text

/-- The four substitutions of `sanitize_error_message`. -/
def rewriteCredentials (u : Unicode) (text : List Char) : List Char :=
  let text := (uriCredentialsPattern u).subBy (fun m =>
    groupText m "scheme" ++ groupText m "user" ++ ':' :: redacted.toList ++ ['@']) text
  let text := (authorizationPattern u).subBy (fun m => groupText m "1" ++ redacted.toList) text
  let text := (structuredSecretPattern u).subBy (fun m =>
    groupText m "prefix" ++ groupText m "quote" ++ redacted.toList ++ groupText m "quote") text
  (apiKeyTokenPattern u).subBy (fun _ => redacted.toList) text

/-- The suffix of a message that was shortened. -/
def truncatedSuffix : String := "… [truncated]"

/-- The end of `sanitize_error_message`: at most `max_chars` characters. -/
def truncate (text : List Char) (maxChars : Int) : List Char :=
  if maxChars ≤ 0 then []
  else if maxChars < text.length then
    if maxChars ≤ truncatedSuffix.length then text.take maxChars.toNat
    else text.take (maxChars - truncatedSuffix.length).toNat ++ truncatedSuffix.toList
  else text

/-- `sanitize_error_message`, of the text of the value. -/
def sanitizeErrorMessage (u : LogEnvironment) (text : String) (maxChars : Int) :
    Except Json.PlainError String := do
  let secrets ← configuredSecretValues u
  let text := rewriteCredentials u.toUnicode (redactSecrets secrets text.toList)
  return String.ofList (truncate text maxChars)

/-- A secret that has no character of the marks' edges and is no part of what
stands between them. -/
structure Concealable (secret : String) : Prop where
  opening : '[' ∉ secret.toList
  closing : ']' ∉ secret.toList
  ellipsis : '…' ∉ secret.toList
  notRedacted : ¬ secret.toList <:+: "REDACTED".toList
  notTruncated : ¬ secret.toList <:+: " truncated".toList

/-! ## §4. What the configuration gives. -/

section Configuration

variable {u : LogEnvironment}

theorem length_of_mem_secretsNamed {name s : String} {values : List String}
    (h : secretsNamed u name = .ok values) (hs : s ∈ values) : 4 ≤ s.length := by
  unfold secretsNamed at h
  split at h
  · cases h
    cases hs
  · rename_i value _
    split at h
    · cases h
      cases hs
    · rename_i hlength
      have hvalue : 4 ≤ value.length := Nat.le_of_not_lt hlength
      split at h
      · obtain ⟨keys, hkeys, rfl⟩ := map_eq_ok.1 h
        rcases List.mem_cons.1 hs with rfl | hs
        · exact hvalue
        · unfold configuredBearerTokenKeys at hkeys
          split at hkeys
          · cases hkeys
            cases hs
          · cases hkeys
          · cases hkeys
            exact of_decide_eq_true (List.mem_filter.1 hs).2
          · cases hkeys
            cases hs
      · cases h
        rw [List.mem_singleton.1 hs]
        exact hvalue

/-- A configured secret has four characters at least. -/
theorem length_of_mem_configuredSecretValues {secrets : List String} {s : String}
    (h : configuredSecretValues u = .ok secrets) (hs : s ∈ secrets) : 4 ≤ s.length := by
  obtain ⟨values, hvalues, h⟩ := bind_eq_ok.1 h
  obtain rfl := Except.ok.inj h
  rw [List.mem_mergeSort, u.order.mem_list] at hs
  obtain ⟨found, hfound, hs⟩ := List.mem_flatten.1 hs
  obtain ⟨name, -, hname⟩ := exists_of_forall₂_right (forall₂_of_mapM_eq_ok hvalues) hfound
  exact length_of_mem_secretsNamed hname hs

end Configuration

/-! ## §5. What the patterns rewrite. -/

section Rewriting

variable {u : Unicode}

/-- The mark that is put in for a secret. -/
abbrev Marked : List Char → List Char → Prop := Redacted redacted.toList

/-- A group that reads some text and is followed by the rest of a pattern. -/
theorem mem_steps_cat_group {name : String} {a : Regex} {rs : List Regex} {c d : Cursor}
    (ha : a.groupNames = []) (hd : d ∈ steps (cat (.group name a :: rs)) c) :
    ∃ w e, c.Spans w e ∧ e.groups = (name, w) :: c.groups ∧ d ∈ steps (cat rs) e := by
  rw [steps_cat_cons] at hd
  obtain ⟨e, he, hd⟩ := List.mem_flatMap.1 hd
  obtain ⟨w, hw, hgroups⟩ := mem_steps_group ha he
  exact ⟨w, e, hw, hgroups, hd⟩

theorem redacted_uriCredentials {c d : Cursor} (hd : d ∈ steps (uriCredentialsPattern u) c) :
    Marked (c.upTo d) (groupText ⟨c, d⟩ "scheme" ++ groupText ⟨c, d⟩ "user" ++
      ':' :: redacted.toList ++ ['@']) := by
  obtain ⟨scheme, c₁, hscheme, hgroups₁, hd⟩ := mem_steps_cat_group rfl hd
  obtain ⟨user, c₂, huser, hgroups₂, hd⟩ := mem_steps_cat_group rfl hd
  rw [steps_cat_cons] at hd
  obtain ⟨c₃, hcolon, hd⟩ := List.mem_flatMap.1 hd
  obtain ⟨hcolon, hgroups₃⟩ := mem_steps_only hcolon
  obtain ⟨secret, c₄, hsecret, hgroups₄, hat⟩ := mem_steps_cat_group rfl hd
  obtain ⟨hat, hgroups₅⟩ := mem_steps_only hat
  have hspan := (((hscheme.trans huser).trans hcolon).trans hsecret).trans hat
  have hgroups : d.groups =
      ("secret", secret) :: ("user", user) :: ("scheme", scheme) :: c.groups := by
    rw [hgroups₅, hgroups₄, hgroups₃, hgroups₂, hgroups₁]
  have hfirst : groupText ⟨c, d⟩ "scheme" = scheme := by
    rw [groupText, Match.group, hgroups]
    rfl
  have hsecond : groupText ⟨c, d⟩ "user" = user := by
    rw [groupText, Match.group, hgroups]
    rfl
  rw [hspan.upTo, hfirst, hsecond]
  have hmark : Marked (secret ++ ['@']) (redacted.toList ++ ['@']) := .hide secret (.refl _)
  have hall := hmark.keepAll (scheme ++ user ++ [':'])
  simp only [List.append_assoc, List.cons_append, List.nil_append] at hall ⊢
  exact hall

theorem redacted_authorization {c d : Cursor} (hd : d ∈ steps (authorizationPattern u) c) :
    Marked (c.upTo d) (groupText ⟨c, d⟩ "1" ++ redacted.toList) := by
  obtain ⟨scheme, c₁, hscheme, hgroups₁, hd⟩ := mem_steps_cat_group rfl hd
  obtain ⟨secret, hsecret, hgroups₂⟩ := mem_steps_group rfl hd
  have hfirst : groupText ⟨c, d⟩ "1" = scheme := by
    rw [groupText, Match.group, hgroups₂, hgroups₁]
    rfl
  rw [(hscheme.trans hsecret).upTo, hfirst]
  have hmark : Marked (secret ++ []) (redacted.toList ++ []) := .hide secret .nil
  rw [List.append_nil, List.append_nil] at hmark
  exact hmark.keepAll scheme

/-- The secret between two quotes, which read the same text. -/
theorem mem_steps_quotedSecret {quote : Regex} {w : List Char}
    (hquote : ∀ c, ∀ d ∈ steps quote c, c.Spans w d ∧ d.groups = c.groups) {c d : Cursor}
    (hd : d ∈ steps (quotedSecret u quote) c) :
    ∃ secret, c.Spans (w ++ secret ++ w) d ∧
      d.groups = ("secret", secret) :: ("quote", w) :: c.groups := by
  rw [quotedSecret, steps_cat_cons] at hd
  obtain ⟨c₁, hopen, hd⟩ := List.mem_flatMap.1 hd
  obtain ⟨e, he, rfl⟩ := List.mem_map.1 hopen
  obtain ⟨hopen, hgroups₁⟩ := hquote c e he
  obtain ⟨secret, c₂, hsecret, hgroups₂, hd⟩ := mem_steps_cat_group rfl hd
  obtain ⟨hclose, hgroups₃⟩ := hquote c₂ d hd
  have hfirst : c.Spans w { e with groups := ("quote", c.upTo e) :: e.groups } :=
    ⟨hopen.after, hopen.before, hopen.offset⟩
  refine ⟨secret, (hfirst.trans hsecret).trans hclose, ?_⟩
  rw [hgroups₃, hgroups₂, hopen.upTo, hgroups₁]

theorem redacted_structuredSecret {c d : Cursor} (hd : d ∈ steps (structuredSecretPattern u) c) :
    Marked (c.upTo d) (groupText ⟨c, d⟩ "prefix" ++ groupText ⟨c, d⟩ "quote" ++
      redacted.toList ++ groupText ⟨c, d⟩ "quote") := by
  obtain ⟨key, c₁, hkey, hgroups₁, hd⟩ := mem_steps_cat_group rfl hd
  -- each of the three ways to quote reads the same text twice
  have hquoted : ∃ w secret, c₁.Spans (w ++ secret ++ w) d ∧
      d.groups = ("secret", secret) :: ("quote", w) :: c₁.groups := by
    rcases List.mem_append.1 hd with hd | hd
    · exact ⟨['"'], mem_steps_quotedSecret (fun _ _ h => mem_steps_only h) hd⟩
    rcases List.mem_append.1 hd with hd | hd
    · exact ⟨['\''], mem_steps_quotedSecret (fun _ _ h => mem_steps_only h) hd⟩
    · refine ⟨[], mem_steps_quotedSecret (fun c e h => ?_) hd⟩
      obtain rfl := List.mem_singleton.1 h
      exact ⟨.refl e, rfl⟩
  obtain ⟨w, secret, hspan, hgroups⟩ := hquoted
  rw [hgroups₁] at hgroups
  have hprefix : groupText ⟨c, d⟩ "prefix" = key := by
    rw [groupText, Match.group, hgroups]
    rfl
  have hquote : groupText ⟨c, d⟩ "quote" = w := by
    rw [groupText, Match.group, hgroups]
    rfl
  rw [(hkey.trans hspan).upTo, hprefix, hquote]
  have hmark : Marked (secret ++ w) (redacted.toList ++ w) := .hide secret (.refl w)
  have hall := hmark.keepAll (key ++ w)
  simp only [List.append_assoc] at hall ⊢
  exact hall

theorem redacted_apiKeyToken (w : List Char) : Marked w redacted.toList := by
  have hmark : Marked (w ++ []) (redacted.toList ++ []) := .hide w .nil
  rw [List.append_nil, List.append_nil] at hmark
  exact hmark

/-- What a text without the brackets of the mark is part of, after its
substitution, it was part of before. -/
theorem infix_of_marked {s : String} (hs : Concealable s) {a b : List Char} (h : Marked a b)
    (hoccurs : s.toList <:+: b) : s.toList <:+: a := by
  have hbrackets : Redacted ('[' :: ("REDACTED".toList ++ [']'])) a b := h
  rcases infix_of_redacted hs.opening hs.closing hbrackets hoccurs with hbefore | hmark
  · exact hbefore
  · exact absurd hmark hs.notRedacted

/-- **The four patterns bring about no secret.** -/
theorem infix_of_rewriteCredentials {s : String} (hs : Concealable s) {text : List Char}
    (h : s.toList <:+: rewriteCredentials u text) : s.toList <:+: text := by
  have hstructured := infix_of_marked hs (redacted_subBy (fun _ _ _ => redacted_apiKeyToken _) _) h
  have hauthorization := infix_of_marked hs
    (redacted_subBy (fun _ _ hd => redacted_structuredSecret hd) _) hstructured
  have huri := infix_of_marked hs
    (redacted_subBy (fun _ _ hd => redacted_authorization hd) _) hauthorization
  exact infix_of_marked hs (redacted_subBy (fun _ _ hd => redacted_uriCredentials hd) _) huri

end Rewriting

/-! ## §6. What is left of a secret. -/

/-- What is replaced later brings a secret about no more. -/
theorem infix_of_redactSecrets {s : String} (hs : Concealable s) :
    ∀ {secrets : List String} {text : List Char},
      s.toList <:+: redactSecrets secrets text → s.toList <:+: text := by
  intro secrets
  induction secrets with
  | nil =>
      intro text h
      exact h
  | cons secret secrets ih =>
      intro text h
      exact infix_of_marked hs (redacted_replaceAll secret.toList redacted.toList text) (ih h)

/-- **No secret is left by the replacements.** -/
theorem not_infix_redactSecrets {s : String} (hs : Concealable s) (hne : s.toList ≠ []) :
    ∀ {secrets : List String} (text : List Char), s ∈ secrets →
      ¬ s.toList <:+: redactSecrets secrets text := by
  intro secrets
  induction secrets with
  | nil =>
      intro text hmem
      cases hmem
  | cons secret secrets ih =>
      intro text hmem hoccurs
      rcases List.mem_cons.1 hmem with rfl | hmem
      · have hgone : ¬ s.toList <:+: replaceAll s.toList redacted.toList text :=
          not_infix_replaceAll hne hs.opening hs.closing hs.notRedacted text
        exact hgone (infix_of_redactSecrets hs hoccurs)
      · exact ih _ hmem hoccurs

/-- A shortened message has no secret that the message does not have. -/
theorem infix_of_truncate {s : String} (hs : Concealable s) (hlength : 4 ≤ s.length)
    {text : List Char} {maxChars : Int} (h : s.toList <:+: truncate text maxChars) :
    s.toList <:+: text := by
  have hlong : 4 ≤ s.toList.length := hlength
  unfold truncate at h
  split at h
  · rw [List.infix_nil.1 h]
    exact List.nil_infix
  split at h
  · split at h
    · exact h.trans (List.take_prefix _ _).isInfix
    · -- the suffix is a character no secret has, a blank and a word in brackets
      rcases infix_append_cons hs.ellipsis h with hbefore | hsuffix
      · exact hbefore.trans (List.take_prefix _ _).isInfix
      · exfalso
        have hmark : s.toList <:+: [' '] ++ '[' :: "truncated]".toList := hsuffix
        rcases infix_append_cons hs.opening hmark with hblank | hword
        · have hle := hblank.length_le
          simp only [List.length_cons, List.length_nil] at hle
          omega
        · have hend : s.toList <:+: "truncated".toList ++ ']' :: [] := hword
          rcases infix_append_cons hs.closing hend with hbody | hnil
          · exact hs.notTruncated (hbody.trans ⟨[' '], [], rfl⟩)
          · have hle := hnil.length_le
            simp only [List.length_nil] at hle
            omega
  · exact h

/-- A message has at most so many characters. -/
theorem length_truncate (text : List Char) (maxChars : Int) :
    ((truncate text maxChars).length : Int) ≤ max maxChars 0 := by
  have hsuffix : truncatedSuffix.toList.length = truncatedSuffix.length := rfl
  unfold truncate
  split
  · simp only [List.length_nil]
    omega
  split
  · split
    · rw [List.length_take]
      omega
    · rw [List.length_append, List.length_take, hsuffix]
      omega
  · omega

/-- **NO ERROR MESSAGE CARRIES A CONFIGURED SECRET**, and none is longer than
it may be. -/
theorem not_infix_sanitizeErrorMessage {u : LogEnvironment} {secrets : List String}
    (hsecrets : configuredSecretValues u = .ok secrets) (hplain : ∀ s ∈ secrets, Concealable s)
    (text : String) (maxChars : Int) :
    ∃ out, sanitizeErrorMessage u text maxChars = .ok out ∧
      (∀ s ∈ secrets, ¬ s.toList <:+: out.toList) ∧ (out.length : Int) ≤ max maxChars 0 := by
  refine ⟨_, bind_eq_ok.2 ⟨secrets, hsecrets, rfl⟩, ?_, ?_⟩
  · intro s hs hoccurs
    have hlength := length_of_mem_configuredSecretValues hsecrets hs
    have hne : s.toList ≠ [] := by
      intro hnil
      have hzero : s.length = 0 := congrArg List.length hnil
      omega
    rw [String.toList_ofList] at hoccurs
    have hrewritten := infix_of_truncate (hplain s hs) hlength hoccurs
    have hredacted := infix_of_rewriteCredentials (hplain s hs) hrewritten
    exact not_infix_redactSecrets (hplain s hs) hne text.toList hs hredacted
  · have hbound := length_truncate
      (rewriteCredentials u.toUnicode (redactSecrets secrets text.toList)) maxChars
    rw [String.length_ofList]
    exact hbound

/-- A table of tokens with one key, and another token. -/
def LogEnvironment.twoTokens : LogEnvironment where
  toUnicode := .ascii
  environ := fun name =>
    if name = "RPY_BEARER_TOKENS" then some "\x7b\"key-number-one\": null\x7d"
    else if name = "RPY_OPS_TOKEN" then some "ops-token" else none
  order := .given

theorem configuredSecretValues_twoTokens : configuredSecretValues .twoTokens =
    .ok ["\x7b\"key-number-one\": null\x7d", "key-number-one", "ops-token"] := by
  have hvalues : secretEnvNames.mapM (secretsNamed .twoTokens) = .ok
      [[], [], [], [], [], [], [], ["\x7b\"key-number-one\": null\x7d", "key-number-one"], [],
        ["ops-token"], [], [], [], [], [], [], []] := by decide +kernel
  rw [configuredSecretValues, hvalues]
  show Except.ok (List.mergeSort (List.dedup
    ["\x7b\"key-number-one\": null\x7d", "key-number-one", "ops-token"]) _) = _
  rw [List.dedup_eq_self.2 (by decide), List.mergeSort_of_pairwise (by decide)]

theorem not_infix_sanitizeErrorMessage_twoTokens :
    ∃ out, sanitizeErrorMessage .twoTokens "key-number-one is no ops-token" 20 = .ok out ∧
      (∀ s ∈ ["\x7b\"key-number-one\": null\x7d", "key-number-one", "ops-token"],
        ¬ s.toList <:+: out.toList) ∧ (out.length : Int) ≤ max 20 0 := by
  have hplain : ∀ s ∈ ["\x7b\"key-number-one\": null\x7d", "key-number-one", "ops-token"],
      Concealable s := by
    simp only [List.forall_mem_cons, List.not_mem_nil, false_implies, implies_true, and_true]
    exact ⟨⟨by decide, by decide, by decide, by decide, by decide⟩,
      ⟨by decide, by decide, by decide, by decide, by decide⟩,
      ⟨by decide, by decide, by decide, by decide, by decide⟩⟩
  exact not_infix_sanitizeErrorMessage configuredSecretValues_twoTokens hplain _ _

end Rpy.Queue
