import VerdantBond.Intents.Service

set_option autoImplicit false

/-! # One signature, one action

Where the fields that the admin signs have no bar, and no text a surrogate on its own, the signed bytes
tell the five fields, and a request with the same bytes has the same fields as far as they print. Then a
second request with the signature has the same nonce, and comes while the nonce is kept or after the
intent has expired (`authorizes_exactly_one`). A bar in a field lets a signed text be read as other
fields, with another nonce (`authorizes_two`); a surrogate on its own has the bytes of U+FFFD.
-/

namespace VerdantBond

open Function IntentNumbers List

variable {ν : Type}

/-! ## Texts with bars -/

theorem eq_of_append_cons {α : Type} {b : α} {s s' r r' : List α} (hs : b ∉ s) (hs' : b ∉ s')
    (h : s ++ b :: r = s' ++ b :: r') : s = s' ∧ r = r' := by
  induction s generalizing s' with
  | nil =>
      cases s' with
      | nil => exact ⟨rfl, (cons.inj h).2⟩
      | cons x s' =>
          obtain ⟨rfl, -⟩ := cons.inj h
          exact absurd mem_cons_self hs'
  | cons y s ih =>
      cases s' with
      | nil =>
          obtain ⟨rfl, -⟩ := cons.inj h
          exact absurd mem_cons_self hs
      | cons x s' =>
          obtain ⟨rfl, htail⟩ := cons.inj h
          obtain ⟨rfl, hr⟩ := ih (fun hb => hs (mem_cons_of_mem _ hb))
            (fun hb => hs' (mem_cons_of_mem _ hb)) htail
          exact ⟨rfl, hr⟩

theorem count_intentMessage (action target chain expiry nonce : JsString) :
    (intentMessage action target chain expiry nonce).count (unit '|') =
      4 + (action.count (unit '|') + target.count (unit '|') + chain.count (unit '|') +
        expiry.count (unit '|') + nonce.count (unit '|')) := by
  simp only [intentMessage, count_append, count_cons_self]
  omega

/-- **A message of fields without bars tells its fields.** -/
theorem intentMessage_injective {a t c x n a' t' c' x' n' : JsString} (ha : unit '|' ∉ a)
    (ht : unit '|' ∉ t) (hc : unit '|' ∉ c) (hx : unit '|' ∉ x) (hn : unit '|' ∉ n)
    (h : intentMessage a t c x n = intentMessage a' t' c' x' n') :
    a = a' ∧ t = t' ∧ c = c' ∧ x = x' ∧ n = n' := by
  -- both messages have four bars, so the other fields have none either
  have hcount := congrArg (count (unit '|')) h
  rw [count_intentMessage, count_intentMessage, count_eq_zero.mpr ha, count_eq_zero.mpr ht,
    count_eq_zero.mpr hc, count_eq_zero.mpr hx, count_eq_zero.mpr hn] at hcount
  have ha' : unit '|' ∉ a' := count_eq_zero.mp (by omega)
  have ht' : unit '|' ∉ t' := count_eq_zero.mp (by omega)
  have hc' : unit '|' ∉ c' := count_eq_zero.mp (by omega)
  have hx' : unit '|' ∉ x' := count_eq_zero.mp (by omega)
  obtain ⟨ea, h₁⟩ := eq_of_append_cons ha ha' h
  obtain ⟨et, h₂⟩ := eq_of_append_cons ht ht' h₁
  obtain ⟨ec, h₃⟩ := eq_of_append_cons hc hc' h₂
  obtain ⟨ex, en⟩ := eq_of_append_cons hx hx' h₃
  exact ⟨ea, et, ec, ex, en⟩

theorem isWellFormed_intentMessage {a t c x n : JsString} (ha : IsWellFormed a)
    (ht : IsWellFormed t) (hc : IsWellFormed c) (hx : IsWellFormed x) (hn : IsWellFormed n) :
    IsWellFormed (intentMessage a t c x n) := by
  have hbar : IsWellFormed [unit '|'] := isWellFormed_unit (by decide)
  exact ha.append (hbar.append (ht.append (hbar.append (hc.append (hbar.append (hx.append
    (hbar.append hn)))))))

/-! ## What is accepted -/

/-- The fields that are returned are the signed ones. -/
def AdminIntent.Returns (a : AdminIntent ν) (x : SignedIntent ν) : Prop :=
  a.action = x.action ∧ a.target = x.target ∧ a.chain = .text x.chain ∧ a.expiry = x.expiry ∧
    a.nonce = .text x.nonce

/-- An accepted request returns the fields for which its signature was made. -/
def AuthorizedBy (N : IntentNumbers ν) (e : IntentEvent ν) : Prop :=
  ∀ a, e.output = some a → ∃ x ∈ e.pre.signed, a.signature = N.canonical x ∧ a.Returns x

/-- A text without bars and without a surrogate on its own. -/
def PlainText (s : JsString) : Prop := unit '|' ∉ s ∧ IsWellFormed s

def SignedIntent.Plain (x : SignedIntent ν) : Prop :=
  PlainText x.action ∧ PlainText x.target ∧ PlainText x.chain ∧ PlainText x.nonce

/-- Chain and nonce are strings, and no text has a surrogate on its own. -/
def AdminIntent.Texts (a : AdminIntent ν) : Prop :=
  IsWellFormed a.action ∧ IsWellFormed a.target ∧ (∃ s, a.chain = .text s ∧ IsWellFormed s) ∧
    ∃ s, a.nonce = .text s ∧ IsWellFormed s

/-- The admin signs plain texts, and the fields of an accepted request are texts. -/
def PlainFields (e : IntentEvent ν) : Prop :=
  (∀ x, e.input = .sign x → x.Plain) ∧ ∀ a, e.output = some a → a.Texts

/-- **The bytes of plain texts tell the fields**, among texts without a surrogate on its own. -/
theorem canonical_inj {N : IntentNumbers ν} {x : SignedIntent ν} (hx : x.Plain)
    {action target chain nonce : JsString} {expiry : ν} (haction : IsWellFormed action)
    (htarget : IsWellFormed target) (hchain : IsWellFormed chain) (hnonce : IsWellFormed nonce)
    (h : N.canonical x = utf8Bytes (intentMessage action target chain (N.print expiry) nonce)) :
    x.action = action ∧ x.target = target ∧ x.chain = chain ∧ x.expiry = expiry ∧ x.nonce = nonce := by
  obtain ⟨ha, ht, hc, hn⟩ := hx
  have htext := utf8Bytes_inj
    (isWellFormed_intentMessage ha.2 ht.2 hc.2 (N.wellFormed _) hn.2)
    (isWellFormed_intentMessage haction htarget hchain (N.wellFormed _) hnonce) h
  obtain ⟨ea, et, ec, ex, en⟩ :=
    intentMessage_injective ha.1 ht.1 hc.1 (N.bar_not_mem _) hn.1 htext
  exact ⟨ea, et, ec, N.print_injective ex, en⟩

theorem intent_step_cases (N : IntentNumbers ν) (w : IntentWorld ν) (input : IntentInput ν) :
    (∃ x, input = .sign x ∧ (intentMachine N).step w input = ({ w with signed := x :: w.signed }, none)) ∨
    (∃ ms : Nat, (intentMachine N).step w input = ({ w with now := w.now + ms }, none)) ∨
    ∃ raw action target a w', input = .verify raw action target ∧
      N.verify w raw action target = .ok (a, w') ∧ (intentMachine N).step w input = (w', some a) := by
  cases input with
  | sign x => exact .inl ⟨x, rfl, rfl⟩
  | wait ms => exact .inr (.inl ⟨ms, rfl⟩)
  | verify raw action target =>
      simp only [intentMachine]
      cases hverify : N.verify w raw action target with
      | error e => exact .inr (.inl ⟨0, by simp⟩)
      | ok result => exact .inr (.inr ⟨raw, action, target, result.1, result.2, rfl, hverify, rfl⟩)

/-- The admin has signed plain texts only, and the nonce of every accepted intent is kept as
long as the intent is valid. -/
structure Vigilant (N : IntentNumbers ν) (events : List (IntentEvent ν)) (w : IntentWorld ν) : Prop where
  plain : ∀ x ∈ w.signed, x.Plain
  kept : ∀ a ∈ acceptedIntents events, N.floorMs a.expiry < w.now ∨
    ∃ kept, w.nonces a.nonce.print = some kept ∧ N.floorMs a.expiry < kept
  once : ((acceptedIntents events).map AdminIntent.signature).Nodup
  authorized : ∀ e ∈ events, AuthorizedBy N e
  signed : ∀ a ∈ acceptedIntents events, ∃ x ∈ w.signed, a.signature = N.canonical x ∧ a.Returns x

section Steps

variable {N : IntentNumbers ν} {w w' : IntentWorld ν} {a : AdminIntent ν}

variable {raw : IntentRequest ν} {action target : JsString} {events : List (IntentEvent ν)}
  {e : IntentEvent ν}

theorem returns_of_verify (hverify : N.verify w raw action target = .ok (a, w'))
    (hplain : ∀ x ∈ w.signed, x.Plain) (htext : a.Texts) :
    ∃ x ∈ w.signed, a.signature = N.canonical x ∧ a.Returns x := by
  obtain ⟨hmessage, hsigned, -, -⟩ := N.verify_ok hverify
  obtain ⟨x, hx, hcanonical⟩ := mem_map.mp hsigned
  obtain ⟨haction, htarget, ⟨chain, hchain, hcw⟩, nonce, hnonce, hnw⟩ := htext
  rw [hchain, hnonce] at hmessage
  obtain ⟨ea, et, rfl, ex, rfl⟩ :=
    canonical_inj (hplain x hx) haction htarget hcw hnw (hcanonical.trans hmessage)
  exact ⟨x, hx, hcanonical.symm, ea.symm, et.symm, hchain, ex.symm, hnonce⟩

/-- A second request with the signature of an accepted one is refused. -/
theorem signature_new (h : Vigilant N events w)
    (hverify : N.verify w raw action target = .ok (a, w'))
    (hreturns : ∃ x ∈ w.signed, a.signature = N.canonical x ∧ a.Returns x) :
    a.signature ∉ (acceptedIntents events).map AdminIntent.signature := by
  intro hmem
  obtain ⟨b, hb, hsignature⟩ := mem_map.mp hmem
  obtain ⟨-, -, hvalid, hreserve⟩ := N.verify_ok hverify
  obtain ⟨hfree, -⟩ := N.reserve_some hreserve
  -- both return the fields of one signed text
  obtain ⟨x, hx, hax, -, -, -, hexpiry, hnonce⟩ := hreturns
  obtain ⟨y, hy, hby, -, -, -, hexpiry', hnonce'⟩ := h.signed b hb
  obtain ⟨ha, ht, hc, hn⟩ := h.plain x hx
  obtain ⟨-, -, -, hxy, hnxy⟩ := canonical_inj (h.plain y hy) ha.2 ht.2 hc.2 hn.2
    (hby.symm.trans (hsignature.trans hax))
  rw [hexpiry, ← hxy, ← hexpiry'] at hvalid
  rw [hnonce, ← hnxy, ← hnonce'] at hfree
  rcases h.kept b hb with hexpired | ⟨kept, hkept, hlt⟩
  · omega
  · have := hfree kept hkept
    omega

theorem acceptedIntents_snoc (events : List (IntentEvent ν)) (e : IntentEvent ν) :
    acceptedIntents (events ++ [e]) = acceptedIntents events ++ e.output.toList := by
  cases h : e.output <;> simp [acceptedIntents, h]

/-- A step that accepts nothing. -/
theorem Vigilant.quiet (h : Vigilant N events w) (hout : e.output = none)
    (hnonces : w'.nonces = w.nonces) (hnow : w.now ≤ w'.now) (hsigned : w.signed ⊆ w'.signed)
    (hplain : ∀ x ∈ w'.signed, x.Plain) : Vigilant N (events ++ [e]) w' := by
  have hsame : acceptedIntents (events ++ [e]) = acceptedIntents events := by
    rw [acceptedIntents_snoc, hout, Option.toList_none, append_nil]
  refine ⟨hplain, fun a ha => ?_, by rw [hsame]; exact h.once, ?_, fun a ha => ?_⟩
  · rw [hsame] at ha
    rw [hnonces]
    exact (h.kept a ha).imp_left fun hlt => lt_of_lt_of_le hlt hnow
  · refine forall_mem_append.mpr ⟨h.authorized, forall_mem_singleton.mpr fun a ha => ?_⟩
    rw [hout] at ha
    cases ha
  · rw [hsame] at ha
    obtain ⟨x, hx, hreturns⟩ := h.signed a ha
    exact ⟨x, hsigned hx, hreturns⟩

theorem Vigilant.accept (h : Vigilant N events w) (hpre : e.pre = w) (hout : e.output = some a)
    (hverify : N.verify w raw action target = .ok (a, w'))
    (htext : a.Texts) : Vigilant N (events ++ [e]) w' := by
  have hreturns := returns_of_verify hverify h.plain htext
  have hnew := signature_new h hverify hreturns
  obtain ⟨-, -, -, hreserve⟩ := N.verify_ok hverify
  obtain ⟨hfree, rfl⟩ := N.reserve_some hreserve
  have hsnoc : acceptedIntents (events ++ [e]) = acceptedIntents events ++ [a] := by
    rw [acceptedIntents_snoc, hout]
    rfl
  refine ⟨h.plain, ?_, ?_, ?_, ?_⟩
  · rw [hsnoc]
    refine forall_mem_append.mpr ⟨fun b hb => ?_, forall_mem_singleton.mpr ?_⟩
    · by_cases hnonce : b.nonce.print = a.nonce.print
      · -- the nonce was free, so the older intent has expired
        rcases h.kept b hb with hexpired | ⟨kept, hkept, hlt⟩
        · exact .inl hexpired
        · exact .inl (lt_of_lt_of_le hlt (hfree kept (hnonce ▸ hkept)))
      · simp only [update_of_ne hnonce]
        exact h.kept b hb
    · exact .inr ⟨_, update_self .., N.expiry_lt_keptUntil w.now a.expiry⟩
  · rw [hsnoc, map_append, nodup_append]
    refine ⟨h.once, nodup_singleton _, fun s hs t ht heq => hnew ?_⟩
    rw [← mem_singleton.mp ht, ← heq]
    exact hs
  · refine forall_mem_append.mpr ⟨h.authorized, forall_mem_singleton.mpr fun b hb => ?_⟩
    rw [hout] at hb
    cases hb
    rw [hpre]
    exact hreturns
  · rw [hsnoc]
    exact forall_mem_append.mpr ⟨h.signed, forall_mem_singleton.mpr hreturns⟩

theorem vigilant_step (h : Vigilant N events w) (input : IntentInput ν)
    (hplain : PlainFields ((intentMachine N).event w input)) :
    Vigilant N (events ++ [(intentMachine N).event w input]) ((intentMachine N).step w input).1 := by
  obtain ⟨hsign, htext⟩ := hplain
  rcases intent_step_cases N w input with ⟨x, rfl, hstep⟩ | ⟨ms, hstep⟩ |
    ⟨raw, action, target, a, w', rfl, hverify, hstep⟩
  · rw [hstep]
    refine h.quiet (congrArg Prod.snd hstep) rfl le_rfl (subset_cons_self ..) ?_
    exact forall_mem_cons.mpr ⟨hsign x rfl, h.plain⟩
  · rw [hstep]
    refine h.quiet (congrArg Prod.snd hstep) rfl ?_ (List.Subset.refl _) h.plain
    show w.now ≤ w.now + ms
    omega
  · have hout : ((intentMachine N).event w (.verify raw action target)).output = some a :=
      congrArg Prod.snd hstep
    rw [hstep]
    exact h.accept rfl hout hverify (htext a hout)

end Steps

/-- **A signature authorizes exactly one action**: where the admin signs plain texts and the fields of
accepted requests are texts without a surrogate on its own, every accepted request returns the
fields for which its signature was made, and no signature is accepted twice. -/
theorem authorizes_exactly_one (N : IntentNumbers ν) (now : Int) (inputs : List (IntentInput ν))
    (hplain : ∀ e ∈ (intentMachine N).history (.initial now) inputs, PlainFields e) :
    (∀ e ∈ (intentMachine N).history (.initial now) inputs, AuthorizedBy N e) ∧
      ((acceptedIntents ((intentMachine N).history (.initial now) inputs)).map
        AdminIntent.signature).Nodup := by
  have hrun := (intentMachine N).guarded_induct (G := fun _ e => PlainFields e) (P := Vigilant N) ?_
    (fun l input hvigilant hGi => vigilant_step hvigilant input hGi) inputs
    (Machine.guarded_of_forall hplain)
  · exact ⟨hrun.authorized, hrun.once⟩
  · refine ⟨fun x hx => ?_, fun a ha => ?_, nodup_nil, fun e he => ?_, fun a ha => ?_⟩
    · cases hx
    · cases ha
    · cases he
    · cases ha

namespace IntentSamples

def field (s : String) : Option IntentField := some (.text (js s))

def request (chain : String) (expiry : Nat) (nonce signature : String) : IntentInput Nat :=
  .verify ⟨field "pay", field "7", field chain, some expiry, field nonce,
    some (utf8Bytes (js signature))⟩ (js "pay") (js "7")

def signs (nonce : String) : IntentInput Nat := .sign ⟨js "pay", js "7", js "c", 100, js nonce⟩

/-- The nonce has a bar, and the signed text is read in two ways. -/
def twice : List (IntentInput Nat) :=
  [signs "200|m", request "c" 100 "200|m" "pay|7|c|100|200|m",
   request "c|100" 200 "m" "pay|7|c|100|200|m"]

/-- The second request comes with a used nonce. -/
def plain : List (IntentInput Nat) :=
  [signs "m", request "c" 100 "m" "pay|7|c|100|m", request "c" 100 "m" "pay|7|c|100|m"]

def returned (inputs : List (IntentInput Nat)) : List (IntentField × Nat × IntentField) :=
  (acceptedIntents ((intentMachine millis).history (.initial 0) inputs)).map fun a =>
    (a.chain, a.expiry, a.nonce)

theorem plainText_js {s : String}
    (h : (js s).all (fun u => u ≠ unit '|' ∧ ¬ (IsLead u ∨ IsTrail u)) = true) : PlainText (js s) := by
  simp only [all_eq_true, decide_eq_true_eq] at h
  exact ⟨fun hbar => (h _ hbar).1 rfl, isWellFormed_of_plain fun u hu => (h u hu).2⟩

end IntentSamples

open IntentSamples in
theorem authorizes_two :
    returned twice = [(.text (js "c"), 100, .text (js "200|m")), (.text (js "c|100"), 200, .text (js "m"))] ∧
      ((acceptedIntents ((intentMachine millis).history (.initial 0) twice)).map AdminIntent.signature) =
        [utf8Bytes (js "pay|7|c|100|200|m"), utf8Bytes (js "pay|7|c|100|200|m")] := by
  decide

open IntentSamples in
theorem authorizes_exactly_one_sample :
    returned plain = [(.text (js "c"), 100, .text (js "m"))] ∧
      ((acceptedIntents ((intentMachine millis).history (.initial 0) plain)).map
        AdminIntent.signature).Nodup := by
  refine ⟨by decide, (authorizes_exactly_one millis 0 plain fun e he => ?_).2⟩
  have hpay : PlainText (js "pay") := plainText_js (by decide)
  have htarget : PlainText (js "7") := plainText_js (by decide)
  have hchain : PlainText (js "c") := plainText_js (by decide)
  have hnonce : PlainText (js "m") := plainText_js (by decide)
  simp only [plain, Machine.history, mem_cons, not_mem_nil, or_false] at he
  rcases he with rfl | rfl | rfl
  · refine ⟨fun x hx => ?_, fun a ha => by cases ha⟩
    cases hx
    exact ⟨hpay, htarget, hchain, hnonce⟩
  · refine ⟨fun x hx => (by cases hx), fun a ha => ?_⟩
    cases ha
    exact ⟨hpay.2, htarget.2, ⟨_, rfl, hchain.2⟩, _, rfl, hnonce.2⟩
  · exact ⟨fun x hx => (by cases hx), fun a ha => (by cases ha)⟩

end VerdantBond
