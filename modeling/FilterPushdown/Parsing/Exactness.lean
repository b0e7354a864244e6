import FilterPushdown.Parsing.TreeLanguage
import FilterPushdown.Parsing.Reader

/-!
Readers miss no derivation and invent none.  A trail is exact for a language and a text if its
entries tell exactly the trees of the beginnings of the text, and if it ends where no word of the
language begins with more of the text.  Every combinator of readers keeps exactness, provided that
different parts make different wholes.
-/

namespace FilterPushdown.Parsing

namespace Readings

variable {α β γ : Type}

/-- Readings that tell exactly what is in a set of trees, up to "at least two". -/
def Of (trees : α → Prop) : Readings α → Prop
  | none => ∀ a, ¬ trees a
  | one a => ∀ b, trees b ↔ b = a
  | many => ∃ a b, a ≠ b ∧ trees a ∧ trees b

theorem Of.congr {first second : α → Prop} {readings : Readings α} (exact : readings.Of first)
    (same : ∀ a, first a ↔ second a) : readings.Of second := by
  have equal : first = second := funext fun a => propext (same a)
  exact equal ▸ exact

theorem of_union [DecidableEq α] {first second : α → Prop} {r s : Readings α} (hr : r.Of first)
    (hs : s.Of second) : (r.union s).Of fun a => first a ∨ second a := by
  cases r with
  | none =>
    have kept : (none.union s : Readings α) = s := by cases s <;> rfl
    exact kept ▸ hs.congr fun a => ⟨Or.inr, fun h => h.resolve_left (hr a)⟩
  | one a =>
    cases s with
    | none => exact Of.congr (show (one a).Of first from hr) fun b =>
        ⟨Or.inl, fun h => h.resolve_right (hs b)⟩
    | one b =>
      by_cases same : a = b
      · subst same
        have kept : (one a).union (one a) = one a := by simp [union]
        rw [kept]
        exact fun c => ⟨fun h => h.elim (hr c).1 (hs c).1, fun h => Or.inl ((hr c).2 h)⟩
      · have kept : (one a).union (one b) = many := by simp [union, same]
        rw [kept]
        exact ⟨a, b, same, Or.inl ((hr a).2 rfl), Or.inr ((hs b).2 rfl)⟩
    | many =>
      obtain ⟨b, c, ne, hb, hc⟩ := hs
      exact ⟨b, c, ne, Or.inr hb, Or.inr hc⟩
  | many =>
    obtain ⟨b, c, ne, hb, hc⟩ := hr
    have kept : (many.union s : Readings α) = many := by cases s <;> rfl
    rw [kept]
    exact ⟨b, c, ne, Or.inl hb, Or.inl hc⟩

theorem of_map {trees : α → Prop} {r : Readings α} {f : α → β} (hr : r.Of trees)
    (injective : ∀ a b, trees a → trees b → f a = f b → a = b) :
    (r.map f).Of fun b => ∃ a, trees a ∧ f a = b := by
  cases r with
  | none => exact fun b ⟨a, ha, _⟩ => hr a ha
  | one a =>
    refine fun b => ⟨?_, ?_⟩
    · rintro ⟨a', ha, rfl⟩
      exact congrArg f ((hr a').1 ha)
    · rintro rfl
      exact ⟨a, (hr a).2 rfl, rfl⟩
  | many =>
    obtain ⟨a, b, ne, ha, hb⟩ := hr
    exact ⟨f a, f b, fun same => ne (injective a b ha hb same), ⟨a, ha, rfl⟩, ⟨b, hb, rfl⟩⟩

theorem of_refuse {trees : α → Prop} {r : Readings α} {refused : α → Bool} (hr : r.Of trees)
    (single : ∀ a b, trees a → trees b → a = b) :
    (r.refuse refused).Of fun a => trees a ∧ refused a = false := by
  cases r with
  | none => exact fun a h => hr a h.1
  | one a =>
    cases out : refused a with
    | true =>
      have kept : (one a).refuse refused = none := by simp [refuse, out]
      rw [kept]
      rintro b ⟨hb, free⟩
      rw [(hr b).1 hb, out] at free
      cases free
    | false =>
      have kept : (one a).refuse refused = one a := by simp [refuse, out]
      rw [kept]
      exact fun b => ⟨fun h => (hr b).1 h.1, fun h => ⟨(hr b).2 h, h ▸ out⟩⟩
  | many =>
    obtain ⟨a, b, ne, ha, hb⟩ := hr
    exact absurd (single a b ha hb) ne

theorem of_combine {first : α → Prop} {second : β → Prop} {r : Readings α} {s : Readings β}
    {f : α → β → γ} (hr : r.Of first) (hs : s.Of second)
    (left : ∀ a a' b, first a → first a' → second b → f a b = f a' b → a = a')
    (right : ∀ a b b', first a → second b → second b' → f a b = f a b' → b = b') :
    (combine f r s).Of fun c => ∃ a b, first a ∧ second b ∧ f a b = c := by
  cases r with
  | none => exact fun c ⟨a, _, ha, _⟩ => hr a ha
  | one a =>
    have ha := (hr a).2 rfl
    cases s with
    | none => exact fun c ⟨_, b, _, hb, _⟩ => hs b hb
    | one b =>
      refine fun c => ⟨?_, ?_⟩
      · rintro ⟨a', b', ha', hb', rfl⟩
        rw [(hr a').1 ha', (hs b').1 hb']
      · rintro rfl
        exact ⟨a, b, ha, (hs b).2 rfl, rfl⟩
    | many =>
      obtain ⟨b, b', ne, hb, hb'⟩ := hs
      exact ⟨f a b, f a b', fun same => ne (right a b b' ha hb hb' same), ⟨a, b, ha, hb, rfl⟩,
        ⟨a, b', ha, hb', rfl⟩⟩
  | many =>
    obtain ⟨a, a', ne, ha, ha'⟩ := hr
    cases s with
    | none => exact fun c ⟨_, b, _, hb, _⟩ => hs b hb
    | one b =>
      have hb := (hs b).2 rfl
      exact ⟨f a b, f a' b, fun same => ne (left a a' b ha ha' hb same), ⟨a, b, ha, hb, rfl⟩,
        ⟨a', b, ha', hb, rfl⟩⟩
    | many =>
      obtain ⟨b, _, _, hb, _⟩ := hs
      exact ⟨f a b, f a' b, fun same => ne (left a a' b ha ha' hb same), ⟨a, b, ha, hb, rfl⟩,
        ⟨a', b, ha', hb, rfl⟩⟩

end Readings

variable {τ α β γ : Type} [Letter τ]

/-- A trail that tells exactly which trees the beginnings of a text have in a language, and ends
with the last beginning that some word of the language goes on from. -/
inductive Exact : TreeLanguage α → List τ → Trail α → Prop where
  | empty {L : TreeLanguage α} {text : List τ} (none : ∀ word tree, ¬ L word tree) : Exact L text []
  | last {L : TreeLanguage α} {readings : Readings α} (some : L.Inhabited)
      (here : readings.Of (L [])) : Exact L [] [readings]
  | step {L : TreeLanguage α} {readings : Readings α} {t : τ} {text : List τ} {trail : Trail α}
      (some : L.Inhabited) (here : readings.Of (L []))
      (later : Exact (L.derive (Letter.char t)) text trail) :
      Exact L (t :: text) (readings :: trail)

namespace Exact

theorem congr {L M : TreeLanguage α} {text : List τ} {trail : Trail α} (exact : Exact L text trail)
    (same : ∀ word tree, L word tree ↔ M word tree) : Exact M text trail := by
  have equal : L = M := funext fun word => funext fun tree => propext (same word tree)
  exact equal ▸ exact

theorem tail {L : TreeLanguage α} {t : τ} {text : List τ} {trail : Trail α}
    (exact : Exact L (t :: text) trail) :
    Exact (L.derive (Letter.char t)) text trail.tail := by
  cases exact with
  | empty none => exact .empty fun word tree => none _ tree
  | step _ _ later => exact later

theorem result (a : α) (text : List τ) :
    Exact (TreeLanguage.result a) text (Reader.result a text) := by
  have some : (TreeLanguage.result a).Inhabited := ⟨[], a, rfl, rfl⟩
  have here : (Readings.one a).Of (TreeLanguage.result a []) := fun b => ⟨And.right, And.intro rfl⟩
  cases text with
  | nil => exact .last some here
  | cons t text => exact .step some here (.empty fun word tree h => nomatch h.1)

theorem letter {tree? : Char → Option α} (some : ∃ c a, tree? c = some a) (text : List τ) :
    Exact (TreeLanguage.letter tree?) text (Reader.letter tree? text) := by
  obtain ⟨c, a, found⟩ := some
  have inhabited : (TreeLanguage.letter tree?).Inhabited := ⟨[c], a, c, rfl, found⟩
  have here : (Readings.none : Readings α).Of (TreeLanguage.letter tree? []) :=
    fun b ⟨d, no, _⟩ => nomatch no
  cases text with
  | nil => exact .last inhabited here
  | cons t text =>
    cases known : tree? (Letter.char t) with
    | none =>
      have kept : Reader.letter tree? (t :: text) = [.none] := by simp [Reader.letter, known]
      rw [kept]
      refine .step inhabited here (.empty ?_)
      rintro word tree ⟨d, same, found⟩
      obtain ⟨rfl, -⟩ := List.cons.inj same
      rw [known] at found
      cases found
    | some b =>
      have kept : Reader.letter tree? (t :: text) = [.none, .one b] := by
        simp [Reader.letter, known]
      rw [kept]
      refine .step inhabited here
        (congr (L := TreeLanguage.result b) (Exact.result b text) fun word tree => ⟨?_, ?_⟩)
      · rintro ⟨rfl, rfl⟩
        exact ⟨_, rfl, known⟩
      · rintro ⟨d, same, found⟩
        obtain ⟨rfl, rfl⟩ := List.cons.inj same
        rw [known] at found
        exact ⟨rfl, (Option.some.inj found).symm⟩

theorem union [DecidableEq α] {L M : TreeLanguage α} {text : List τ} {first second : Trail α}
    (left : Exact L text first) (right : Exact M text second) :
    Exact (L.or M) text (first.union second) := by
  induction left generalizing M second with
  | empty none =>
    have kept : Trail.union [] second = second := by cases second <;> rfl
    rw [kept]
    exact right.congr fun word tree => ⟨Or.inr, fun h => h.resolve_left (none word tree)⟩
  | last some here =>
    cases right with
    | empty none =>
      exact (Exact.last some here).congr fun word tree =>
        ⟨Or.inl, fun h => h.resolve_right (none word tree)⟩
    | last _ here' =>
      obtain ⟨word, tree, inside⟩ := some
      exact .last ⟨word, tree, .inl inside⟩ (Readings.of_union here here')
  | step some here later ih =>
    cases right with
    | empty none =>
      exact (Exact.step some here later).congr fun word tree =>
        ⟨Or.inl, fun h => h.resolve_right (none word tree)⟩
    | step _ here' later' =>
      obtain ⟨word, tree, inside⟩ := some
      exact .step ⟨word, tree, .inl inside⟩ (Readings.of_union here here') (ih later')

theorem map {L : TreeLanguage α} {text : List τ} {trail : Trail α} {f : α → β}
    (exact : Exact L text trail) (injective : ∀ word a b, L word a → L word b → f a = f b → a = b) :
    Exact (L.map f) text (trail.map f) := by
  induction exact with
  | empty none => exact .empty fun word tree ⟨a, inside, _⟩ => none word a inside
  | last some here =>
    obtain ⟨word, a, inside⟩ := some
    exact .last ⟨word, f a, a, inside, rfl⟩ (Readings.of_map here (injective []))
  | step some here later ih =>
    obtain ⟨word, a, inside⟩ := some
    exact .step ⟨word, f a, a, inside, rfl⟩ (Readings.of_map here (injective []))
      (ih fun word a b ha hb same => injective _ a b ha hb same)

/-- Refused words may begin longer ones: after any letters that begin a word, a word must remain
that is not refused. -/
theorem refuse {L : TreeLanguage α} {text : List τ} {trail : Trail α} {refused : α → Bool}
    (exact : Exact L text trail) (single : L.Unambiguous)
    (goesOn : ∀ before rest tree, L (before ++ rest) tree →
      ∃ rest tree, L (before ++ rest) tree ∧ refused tree = false) :
    Exact (L.refuse refused) text (trail.refuse refused) := by
  induction exact with
  | empty none => exact .empty fun word tree inside => none word tree inside.1
  | last some here =>
    obtain ⟨word, tree, inside⟩ := some
    obtain ⟨rest, other, free⟩ := goesOn [] word tree inside
    exact .last ⟨_, _, free⟩ (Readings.of_refuse here (single []))
  | @step L _ t _ _ some here later ih =>
    obtain ⟨word, tree, inside⟩ := some
    obtain ⟨rest, other, free⟩ := goesOn [] word tree inside
    exact .step ⟨_, _, free⟩ (Readings.of_refuse here (single []))
      (ih (fun word => single _) fun before => goesOn (Letter.char t :: before))

/-- What comes after a beginning that was read: each of its trees with each tree of the rest. -/
theorem after {trees : α → Prop} {M : TreeLanguage β} {f : α → β → γ} {readings : Readings α}
    (next : Reader τ β) (text : List τ) (here : readings.Of trees)
    (exact : (∃ a, trees a) → Exact M text (next text))
    (left : ∀ a a' word b, trees a → trees a' → M word b → f a b = f a' b → a = a')
    (right : ∀ a word b b', trees a → M word b → M word b' → f a b = f a b' → b = b') :
    Exact (fun word c => ∃ a b, trees a ∧ M word b ∧ f a b = c) text
      (Reader.after f readings next text) := by
  have general : ∀ (M : TreeLanguage β) (text : List τ) (trail : Trail β), Exact M text trail →
      (∀ a a' word b, trees a → trees a' → M word b → f a b = f a' b → a = a') →
      (∀ a word b b', trees a → M word b → M word b' → f a b = f a b' → b = b') →
      (∃ a, trees a) →
      Exact (fun word c => ∃ a b, trees a ∧ M word b ∧ f a b = c) text
        (List.map (Readings.combine f readings) trail) := by
    intro M text trail exact
    induction exact with
    | empty none => exact fun _ _ _ => .empty fun word c ⟨a, b, _, inside, _⟩ => none word b inside
    | last some there =>
      intro left right ⟨a, known⟩
      obtain ⟨word, b, inside⟩ := some
      exact .last ⟨word, f a b, a, b, known, inside, rfl⟩
        (Readings.of_combine here there (fun a a' => left a a' []) fun a => right a [])
    | step some there later ih =>
      intro left right ⟨a, known⟩
      obtain ⟨word, b, inside⟩ := some
      exact .step ⟨word, f a b, a, b, known, inside, rfl⟩
        (Readings.of_combine here there (fun a a' => left a a' []) fun a => right a [])
        (ih (fun a a' word => left a a' _) (fun a word => right a _) ⟨a, known⟩)
  cases readings with
  | none => exact .empty fun word c ⟨a, _, known, _⟩ => here a known
  | one a =>
    have known : ∃ a, trees a := ⟨a, (here a).2 rfl⟩
    exact general M text _ (exact known) left right known
  | many =>
    obtain ⟨a, _, _, first, _⟩ := here
    exact general M text _ (exact ⟨a, first⟩) left right ⟨a, first⟩

/-- Two parts of a choice of which the second has no empty word. -/
private theorem union_later [DecidableEq α] {L M : TreeLanguage α} {t : τ} {text : List τ}
    {first later : Trail α} (left : Exact L (t :: text) first) (none : ∀ tree, ¬ M [] tree)
    (right : Exact (M.derive (Letter.char t)) text later) (some : (L.or M).Inhabited) :
    Exact (L.or M) (t :: text) (first.union (.none :: later)) := by
  cases left with
  | empty no =>
    exact .step some (Readings.of_union (r := .none) (no []) none)
      (right.congr fun word tree => ⟨Or.inr, fun h => h.resolve_left (no _ tree)⟩)
  | step _ here rest => exact .step some (Readings.of_union here none) (rest.union right)

private theorem union_last [DecidableEq α] {L M : TreeLanguage α} {first : Trail α}
    (left : Exact L ([] : List τ) first) (none : ∀ tree, ¬ M [] tree)
    (some : (L.or M).Inhabited) : Exact (L.or M) ([] : List τ) (first.union [.none]) := by
  cases left with
  | empty no => exact .last some (Readings.of_union (r := .none) (no []) none)
  | last _ here => exact .last some (Readings.of_union here none)

/-- A sequence is exact if the second reader is exact wherever a first word ends. -/
theorem seq [DecidableEq γ] {L : TreeLanguage α} {M : TreeLanguage β} {text : List τ}
    {trail : Trail α} {f : α → β → γ} {second : Reader τ β} (exact : Exact L text trail)
    (inhabited : M.Inhabited)
    (next : ∀ before after, before ++ after = text → (∃ a, L (before.map Letter.char) a) →
      Exact M after (second after))
    (left : ∀ u a a' v b, L u a → L u a' → M v b → f a b = f a' b → a = a')
    (right : ∀ u a v b b', L u a → M v b → M v b' → f a b = f a b' → b = b') :
    Exact (TreeLanguage.Seq f L M) text (Reader.continueWith f second trail text) := by
  obtain ⟨m, b, last⟩ := inhabited
  induction exact with
  | empty none =>
    refine .empty ?_
    rintro word tree ⟨inside, _⟩
    exact none _ _ inside
  | @last L _ some here =>
    have first := Exact.after (f := f) second [] here
      (fun ⟨a, known⟩ => next [] [] rfl ⟨a, known⟩) (left []) (right [])
    obtain ⟨u, a, inside⟩ := some
    have all := first.union_last
      (M := fun word tree =>
        ∃ c rest, word = c :: rest ∧ TreeLanguage.Seq f (L.derive c) M rest tree)
      (by rintro tree ⟨c, rest, no, _⟩; cases no)
      ⟨u ++ m, f a b, TreeLanguage.seq_iff.1 (.seq inside last)⟩
    exact all.congr fun word tree => TreeLanguage.seq_iff.symm
  | @step L _ t text _ some here later ih =>
    have first := Exact.after (f := f) second (t :: text) here
      (fun ⟨a, known⟩ => next [] (t :: text) rfl ⟨a, known⟩) (left []) (right [])
    have rest := ih
      (fun before after same ⟨a, known⟩ => next (t :: before) after (by simp [same]) ⟨a, known⟩)
      (fun u a a' v b inside inside' => left _ a a' v b inside inside')
      (fun u a v b b' inside => right _ a v b b' inside)
    obtain ⟨u, a, inside⟩ := some
    have all := first.union_later
      (M := fun word tree =>
        ∃ c rest, word = c :: rest ∧ TreeLanguage.Seq f (L.derive c) M rest tree)
      (by rintro tree ⟨c, rest, no, _⟩; cases no)
      (rest.congr fun word tree =>
        ⟨fun h => ⟨_, word, rfl, h⟩, fun ⟨c, rest, same, h⟩ => by cases same; exact h⟩)
      ⟨u ++ m, f a b, TreeLanguage.seq_iff.1 (.seq inside last)⟩
    exact all.congr fun word tree => TreeLanguage.seq_iff.symm

/-- A chain is exact if its steps are exact wherever a shorter chain ends. -/
theorem chain [DecidableEq α] {L : TreeLanguage α} {M : TreeLanguage β} {text : List τ}
    {trail : Trail α} {f : α → β → α} {step : Reader τ β} (exact : Exact L text trail)
    (nonempty : ∀ b, ¬ M [] b)
    (next : ∀ before after, before ++ after = text →
      (∃ a, TreeLanguage.Chain f L M (before.map Letter.char) a) → Exact M after (step after))
    (left : ∀ u a a' v b, TreeLanguage.Chain f L M u a → TreeLanguage.Chain f L M u a' → M v b →
      f a b = f a' b → a = a')
    (right : ∀ u a v b b', TreeLanguage.Chain f L M u a → M v b → M v b' →
      f a b = f a b' → b = b') :
    Exact (TreeLanguage.Chain f L M) text (Reader.extend f step trail text) := by
  induction text generalizing L trail with
  | nil =>
    cases exact with
    | empty none =>
      refine .empty fun word tree chain => ?_
      obtain ⟨word, tree, start⟩ := TreeLanguage.chain_inhabited.1 ⟨word, tree, chain⟩
      exact none word tree start
    | last some here =>
      exact .last (TreeLanguage.chain_inhabited.2 some)
        (here.congr fun a => (TreeLanguage.chain_nil nonempty).symm)
  | cons t text ih =>
    cases exact with
    | empty none =>
      refine .empty fun word tree chain => ?_
      obtain ⟨word, tree, start⟩ := TreeLanguage.chain_inhabited.1 ⟨word, tree, chain⟩
      exact none word tree start
    | step some here later =>
      have stepped := (Exact.after (f := f) step (t :: text) here
        (fun ⟨a, start⟩ => next [] (t :: text) rfl ⟨a, .first start⟩)
        (fun a a' v b start start' => left [] a a' v b (.first start) (.first start'))
        (fun a v b b' start => right [] a v b b' (.first start))).tail
      have rest := ih (L := TreeLanguage.pending f L M (Letter.char t)) (later.union stepped)
        (fun before after same ⟨a, chain⟩ => next (t :: before) after (by simp [same])
          ⟨a, (TreeLanguage.chain_cons nonempty).2 chain⟩)
        (fun u a a' v b chain chain' => left _ a a' v b ((TreeLanguage.chain_cons nonempty).2 chain)
          ((TreeLanguage.chain_cons nonempty).2 chain'))
        (fun u a v b b' chain => right _ a v b b' ((TreeLanguage.chain_cons nonempty).2 chain))
      exact .step (TreeLanguage.chain_inhabited.2 some)
        (here.congr fun a => (TreeLanguage.chain_nil nonempty).symm)
        (rest.congr fun word tree => (TreeLanguage.chain_cons nonempty).symm)

/-- An exact trail gives out at the first letter with which no word goes on. -/
theorem lt_length_iff {L : TreeLanguage α} {text : List τ} {trail : Trail α}
    (exact : Exact L text trail) {k : Nat} (inside : k ≤ text.length) :
    k < trail.length ↔
      ∃ rest tree, L ((text.take k).map Letter.char ++ rest) tree := by
  induction exact generalizing k with
  | empty none =>
    exact ⟨fun no => absurd no (Nat.not_lt_zero _),
      fun ⟨_, tree, inside⟩ => (none _ tree inside).elim⟩
  | last some _ =>
    have zero : k = 0 := by simpa using inside
    subst zero
    exact ⟨fun _ => by simpa [TreeLanguage.Inhabited] using some, fun _ => by simp⟩
  | step some _ _ ih =>
    cases k with
    | zero => exact ⟨fun _ => by simpa [TreeLanguage.Inhabited] using some, fun _ => by simp⟩
    | succ k =>
      have shorter : k ≤ _ := Nat.le_of_succ_le_succ inside
      simpa [TreeLanguage.derive] using ih shorter

/-- The entries of an exact trail tell the trees of the beginnings of the text. -/
theorem getElem {L : TreeLanguage α} {text : List τ} {trail : Trail α} (exact : Exact L text trail)
    {k : Nat} (short : k < trail.length) :
    (trail[k]).Of (L ((text.take k).map Letter.char)) := by
  induction exact generalizing k with
  | empty none => exact absurd short (Nat.not_lt_zero _)
  | last _ here =>
    have zero : k = 0 := by simpa using short
    subst zero
    exact here
  | step _ here _ ih =>
    cases k with
    | zero => exact here
    | succ k => exact ih (Nat.lt_of_succ_lt_succ short)

theorem length_le {L : TreeLanguage α} {text : List τ} {trail : Trail α}
    (exact : Exact L text trail) : trail.length ≤ text.length + 1 := by
  induction exact with
  | empty none => exact Nat.zero_le _
  | last _ _ => exact Nat.le_refl _
  | step _ _ _ ih => exact Nat.succ_le_succ ih

/-- Exactness looks at nothing but the letters of a text. -/
theorem transfer {σ : Type} [Letter σ] {L : TreeLanguage α} {text : List τ} {other : List σ}
    {trail : Trail α} (exact : Exact L text trail)
    (same : text.map Letter.char = other.map Letter.char) : Exact L other trail := by
  induction exact generalizing other with
  | empty none => exact .empty none
  | last some here =>
    cases other with
    | nil => exact .last some here
    | cons t other => cases same
  | step some here later ih =>
    cases other with
    | nil => cases same
    | cons t other =>
      obtain ⟨first, rest⟩ := List.cons.inj same
      exact .step some here (first ▸ ih rest)

end Exact

end FilterPushdown.Parsing
