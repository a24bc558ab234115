import TokenNet.Json.Reader
import TokenNet.Proofs.Escapes
import TokenNet.Proofs.Numerals
/-!
From text to tokens.  What is written for a value is a run of tokens, `tokens`, with blanks between
some of them; the layout has no say in the tokens as long as it indents by blanks.  Main statement:
`lexes_write`.
-/

namespace TokenNet

theorem bind_eq_ok {ε α β : Type} {x : Except ε α} {f : α → Except ε β} {b : β} :
    x >>= f = .ok b ↔ ∃ a, x = .ok a ∧ f a = .ok b := by
  cases x with
  | error e => exact ⟨fun h => (nomatch h), fun ⟨_, h, _⟩ => (nomatch h)⟩
  | ok a => exact ⟨fun h => ⟨a, rfl, h⟩, fun ⟨_, ha, h⟩ => Except.ok.inj ha ▸ h⟩

namespace Binary64

/-- The double as it is read once it was written: all nans look the same. -/
def asRead (x : Binary64) : Binary64 := if x.isNan then .nan else x

theorem eq_infinity {x : Binary64} (h : x.isInfinite = true) : x = .infinity x.negative := by
  obtain ⟨negative, exponent, fraction⟩ := x
  simp only [isInfinite, isFinite, Bool.and_eq_true, Bool.not_eq_true', decide_eq_false_iff_not,
    decide_eq_true_eq] at h
  have hexponent := exponent.isLt
  simp only [infinity, Binary64.mk.injEq, true_and]
  exact ⟨Fin.ext (show exponent.val = 2047 by omega), Fin.ext h.2⟩

end Binary64

namespace Json

open Decimal

/-! ## Lexing piece by piece -/

/-- The text is a run of these tokens. -/
def Lexes (cs : List Char) (ts : List Token) : Prop :=
  ∀ fuel, cs.length < fuel → lexWithin fuel cs = some ts

theorem lexes_nil : Lexes [] [] := by
  intro fuel h
  cases fuel with
  | zero => exact absurd h (Nat.not_lt_zero _)
  | succ fuel => rfl

theorem Lexes.blanks {bs cs : List Char} {ts : List Token} (h : Lexes cs ts)
    (hbs : ∀ c ∈ bs, isBlank c = true) : Lexes (bs ++ cs) ts := by
  intro fuel hfuel
  rw [List.length_append] at hfuel
  have hlex := h fuel (by omega)
  cases fuel with
  | zero => exact absurd hfuel (Nat.not_lt_zero _)
  | succ fuel => rwa [lexWithin, List.dropWhile_append_of_pos hbs]

theorem Lexes.token {c : Char} {tail rest : List Char} {t : Token} {ts : List Token}
    (h : Lexes rest ts) (hc : isBlank c = false)
    (ht : next? (c :: tail ++ rest) = some (t, rest)) : Lexes (c :: tail ++ rest) (t :: ts) := by
  intro fuel hfuel
  rw [List.cons_append, List.length_cons, List.length_append] at hfuel
  rw [List.cons_append] at ht ⊢
  cases fuel with
  | zero => exact absurd hfuel (Nat.not_lt_zero _)
  | succ fuel =>
    rw [lexWithin, List.dropWhile_cons_of_neg (by simp [hc])]
    dsimp only
    rw [ht]
    dsimp only [Option.bind_eq_bind, Option.bind_some]
    rw [h fuel (by omega)]
    rfl

theorem Lexes.mark {c : Char} {rest : List Char} {t : Token} {ts : List Token} (h : Lexes rest ts)
    (hc : isBlank c = false) (ht : next? (c :: rest) = some (t, rest)) :
    Lexes (c :: rest) (t :: ts) :=
  @Lexes.token c [] rest t ts h hc ht

/-! ## Scalars -/

theorem firstWord?_eq_none {ws : List (List Char × Datum)} {cs : List Char}
    (h : ∀ w ∈ ws, w.1.isPrefixOf cs = false) : firstWord? ws cs = none := by
  induction ws with
  | nil => rfl
  | cons w rest ih =>
    rw [List.forall_mem_cons] at h
    simp only [firstWord?, word?, h.1, Bool.false_eq_true, if_false, ih h.2]

theorem next?_word {word : List Char} {d : Datum} (h : (word, d) ∈ words) (rest : List Char) :
    next? (word ++ rest) = some (.scalar d, rest) := by
  simp only [words, List.mem_cons, Prod.mk.injEq, List.not_mem_nil, or_false] at h
  rcases h with ⟨rfl, rfl⟩ | ⟨rfl, rfl⟩ | ⟨rfl, rfl⟩ | ⟨rfl, rfl⟩ | ⟨rfl, rfl⟩ | ⟨rfl, rfl⟩ <;> rfl

/-- A number starts with a digit, or with a digit behind its sign. -/
theorem start_of_number? {cs : List Char} {r : Datum × List Char} (h : number? cs = some r) :
    ∃ c tail, isDigit c = true ∧ (cs = c :: tail ∨ cs = '-' :: c :: tail) := by
  unfold number? at h
  split at h <;> obtain ⟨c, tail, rfl, hc⟩ := digit_of_magnitude? h
  · exact ⟨c, tail, hc, Or.inr rfl⟩
  · exact ⟨c, tail, hc, Or.inl rfl⟩

theorem next?_number {cs rest : List Char} {d : Datum} (h : number? cs = some (d, rest)) :
    (∃ c tail, cs = c :: tail ∧ isBlank c = false) ∧ next? cs = some (.scalar d, rest) := by
  obtain ⟨c, tail, hc, hcs⟩ := start_of_number? h
  have hne : ∀ x, isDigit x = false → x ≠ c := by
    rintro x hx rfl
    rw [hc] at hx
    cases hx
  have hblank : isBlank c = false := by
    simp only [isBlank, Bool.or_eq_false_iff, decide_eq_false_iff_not]
    exact ⟨⟨⟨(hne ' ' rfl).symm, (hne '\t' rfl).symm⟩, (hne '\n' rfl).symm⟩, (hne '\r' rfl).symm⟩
  have hword : firstWord? words cs = none := by
    refine firstWord?_eq_none fun w hw => ?_
    simp only [words, List.mem_cons, List.not_mem_nil, or_false] at hw
    rcases hcs with rfl | rfl <;> rcases hw with rfl | rfl | rfl | rfl | rfl | rfl <;>
      simp [List.isPrefixOf] <;> exact fun heq => absurd heq (hne _ rfl)
  have hnext : next? cs = some (.scalar d, rest) := by
    have hhead : ∀ x ∈ ['[', ']', '{', '}', ',', ':', '"'], cs.head? ≠ some x := by
      have hmarks : ['[', ']', '{', '}', ',', ':', '"'].all
          (fun x => !isDigit x && x != '-') = true := rfl
      intro x hx heq
      have hmark := List.all_eq_true.1 hmarks x hx
      rcases hcs with rfl | rfl <;> cases heq
      · simp [hc] at hmark
      · cases hmark
    unfold next?
    split
    case h_8 => rw [hword, h]; rfl
    all_goals exact absurd rfl (hhead _ (by decide))
  rcases hcs with rfl | rfl
  · exact ⟨⟨c, tail, rfl, hblank⟩, hnext⟩
  · exact ⟨⟨'-', c :: tail, rfl, rfl⟩, hnext⟩

theorem next?_quoted (s : String) (rest : List Char) :
    next? (quoted s.toList ++ rest) = some (.scalar (.text s), rest) := by
  obtain ⟨ps, hpieces, hps⟩ := pieces_flatMap_escapeChar s.toList rest
  have hquoted : quoted s.toList ++ rest =
      '"' :: (s.toList.flatMap escapeChar ++ '"' :: rest) := by
    simp [quoted]
  rw [hquoted, next?, hpieces]
  dsimp only [Option.bind_eq_bind, Option.bind_some]
  rw [hps]
  dsimp only [Option.bind_eq_bind, Option.bind_some]
  rw [String.ofList_toList]
  rfl

/-! ## What is written, as tokens -/

/-- The text that a key lends. -/
def keyName (k : Datum) : String :=
  match keyText k with
  | .ok cs => String.ofList cs
  | .error _ => ""

mutual

/-- The value that is read where this one was written. -/
def asRead : Datum → Datum
  | .float x => .float x.asRead
  | .list items => .list (asReadItems items)
  | .map entries => .map (asReadEntries entries)
  | d => d

def asReadItems : List Datum → List Datum
  | [] => []
  | d :: rest => asRead d :: asReadItems rest

def asReadEntries : List (Datum × Datum) → List (Datum × Datum)
  | [] => []
  | (k, v) :: rest => (.text (keyName k), asRead v) :: asReadEntries rest

end

mutual

def tokens : Datum → List Token
  | .list [] => [.listOpen, .listClose]
  | .list (d :: rest) => .listOpen :: (tokens d ++ itemTokens rest)
  | .map [] => [.mapOpen, .mapClose]
  | .map ((k, v) :: rest) =>
    .mapOpen :: .scalar (.text (keyName k)) :: .colon :: (tokens v ++ entryTokens rest)
  | d => [.scalar (asRead d)]

/-- What follows an item of a list: the other items, and the end. -/
def itemTokens : List Datum → List Token
  | [] => [.listClose]
  | d :: rest => .comma :: (tokens d ++ itemTokens rest)

/-- What follows an entry of a map. -/
def entryTokens : List (Datum × Datum) → List Token
  | [] => [.mapClose]
  | (k, v) :: rest =>
    .comma :: .scalar (.text (keyName k)) :: .colon :: (tokens v ++ entryTokens rest)

end

/-- The inside of a list, up to its end. -/
def insideList : List Datum → List Token
  | [] => [.listClose]
  | d :: rest => tokens d ++ itemTokens rest

def insideMap : List (Datum × Datum) → List Token
  | [] => [.mapClose]
  | (k, v) :: rest => .scalar (.text (keyName k)) :: .colon :: (tokens v ++ entryTokens rest)

/-- Blanks are all that it puts between tokens. -/
def Layout.Blank : Layout → Prop
  | .line => True
  | .indented unit => ∀ c ∈ unit, isBlank c = true

theorem Layout.Blank.lineBreak {layout : Layout} (h : layout.Blank) (n : Nat) :
    ∀ c ∈ layout.lineBreak n, isBlank c = true := by
  cases layout with
  | line => simp [Layout.lineBreak]
  | indented unit =>
    simp only [Layout.lineBreak, List.mem_cons, List.mem_flatten, List.mem_replicate]
    rintro c (rfl | ⟨cs, ⟨-, rfl⟩, hc⟩)
    · rfl
    · exact h c hc

theorem Layout.Blank.comma {layout : Layout} (h : layout.Blank) (n : Nat) :
    ∃ bs, layout.comma n = ',' :: bs ∧ ∀ c ∈ bs, isBlank c = true := by
  cases layout with
  | line => exact ⟨[' '], rfl, by simp [isBlank]⟩
  | indented unit => exact ⟨_, rfl, h.lineBreak n⟩

theorem ends_cons {c : Char} (h : isDigit c = false ∧ c ≠ '.' ∧ c ≠ 'e' ∧ c ≠ 'E')
    (rest : List Char) : Ends (c :: rest) where
  digit := by
    rintro d ⟨⟩
    exact h.1
  mark := fun heq => h.2.1 (Option.some.inj heq)
  lower := fun heq => h.2.2.1 (Option.some.inj heq)
  upper := fun heq => h.2.2.2 (Option.some.inj heq)

theorem ends_lineBreak (layout : Layout) (n : Nat) {cs : List Char} (h : Ends cs) :
    Ends (layout.lineBreak n ++ cs) := by
  cases layout with
  | line => exact h
  | indented unit => exact ends_cons (by decide) _

theorem ends_nil : Ends [] where
  digit := by rintro c ⟨⟩
  mark := by simp
  lower := by simp
  upper := by simp

/-! ## Lexing what is written -/

theorem lexes_word {word rest : List Char} {d : Datum} {ts : List Token} (h : Lexes rest ts)
    (hword : (word, d) ∈ words) : Lexes (word ++ rest) (.scalar d :: ts) := by
  obtain ⟨c, tail, rfl, hc⟩ : ∃ c tail, word = c :: tail ∧ isBlank c = false := by
    simp only [words, List.mem_cons, Prod.mk.injEq, List.not_mem_nil, or_false] at hword
    rcases hword with ⟨rfl, -⟩ | ⟨rfl, -⟩ | ⟨rfl, -⟩ | ⟨rfl, -⟩ | ⟨rfl, -⟩ | ⟨rfl, -⟩ <;>
      exact ⟨_, _, rfl, rfl⟩
  exact h.token hc (next?_word hword rest)

theorem lexes_number {cs rest : List Char} {d : Datum} {ts : List Token} (h : Lexes rest ts)
    (hcs : ∀ rest, Ends rest → number? (cs ++ rest) = some (d, rest)) (hr : Ends rest) :
    Lexes (cs ++ rest) (.scalar d :: ts) := by
  obtain ⟨c, tail, heq, hc⟩ := (next?_number (hcs [] ends_nil)).1
  rw [List.append_nil] at heq
  subst heq
  exact h.token hc (next?_number (hcs rest hr)).2

theorem lexes_quoted {rest : List Char} {ts : List Token} (h : Lexes rest ts) (s : String) :
    Lexes (quoted s.toList ++ rest) (.scalar (.text s) :: ts) :=
  h.token rfl (next?_quoted s rest)

theorem lexes_ofBinary64 {rest : List Char} {ts : List Token} (h : Lexes rest ts) (hr : Ends rest)
    (x : Binary64) :
    Lexes (ofBinary64 numberStyle x ++ rest) (.scalar (.float x.asRead) :: ts) := by
  by_cases hfinite : x.isFinite = true
  · have hread : x.asRead = x := by simp [Binary64.asRead, Binary64.isNan, hfinite]
    rw [hread]
    exact lexes_number h (fun _ hr => number?_ofBinary64 hfinite hr) hr
  by_cases hnan : x.isNan = true
  · simp only [ofBinary64, Binary64.asRead, hnan, if_true]
    exact lexes_word h (by simp [words, numberStyle])
  have hinf : x.isInfinite = true := by
    simp [Binary64.isNan, Binary64.isInfinite, hfinite] at hnan ⊢
    exact hnan
  have hread : x.asRead = .infinity x.negative := by
    rw [Binary64.asRead, if_neg hnan]
    exact Binary64.eq_infinity hinf
  simp only [ofBinary64, hnan, hinf, hread, Bool.false_eq_true, if_false, if_true]
  cases x.negative
  · exact lexes_word h (by simp [words, numberStyle])
  · exact lexes_word h (by simp [words, numberStyle])

variable {layout : Layout}

theorem lexes_colon {rest : List Char} {ts : List Token} (h : Lexes rest ts) (s : String) :
    Lexes (quoted s.toList ++ ':' :: ' ' :: rest) (.scalar (.text s) :: .colon :: ts) := by
  have hblank : Lexes (' ' :: rest) ts := @Lexes.blanks [' '] rest ts h (by simp [isBlank])
  exact lexes_quoted (hblank.mark rfl rfl) s

theorem Layout.Blank.lexes_comma (hl : layout.Blank) {rest : List Char} {ts : List Token}
    (h : Lexes rest ts) (n : Nat) : Lexes (layout.comma n ++ rest) (.comma :: ts) := by
  obtain ⟨bs, hcomma, hbs⟩ := hl.comma n
  rw [hcomma]
  exact (h.blanks hbs).mark rfl rfl

theorem ends_comma (layout : Layout) (n : Nat) (rest : List Char) :
    Ends (layout.comma n ++ rest) := by
  cases layout <;> exact ends_cons (by decide) _

mutual

theorem lexes_write (hl : layout.Blank) : ∀ {d : Datum} {n : Nat} {cs rest : List Char}
    {ts : List Token}, write layout n d = .ok cs → Lexes rest ts → Ends rest →
      Lexes (cs ++ rest) (tokens d ++ ts)
  | .null, _, _, _, _, h, ht, _ => by
    cases h
    exact lexes_word ht (by simp [words, asRead])
  | .bool b, _, _, _, _, h, ht, _ => by
    cases h
    cases b <;> exact lexes_word ht (by simp [words, asRead])
  | .int n, _, _, _, _, h, ht, hr =>
    lexes_number ht (fun _ hr => number?_writeInt h hr) hr
  | .float x, _, _, _, _, h, ht, hr => by
    cases h
    exact lexes_ofBinary64 ht hr x
  | .text s, _, _, _, _, h, ht, _ => by
    cases h
    exact lexes_quoted ht s
  | .list [], _, _, _, _, h, ht, _ => by
    cases h
    exact (ht.mark rfl rfl).mark rfl rfl
  | .list (d :: items), n, _, rest, ts, h, ht, _ => by
    obtain ⟨body, hbody, h⟩ := bind_eq_ok.1 h
    cases h
    have hend : Lexes (layout.lineBreak n ++ ']' :: rest) (.listClose :: ts) :=
      (ht.mark rfl rfl).blanks (hl.lineBreak n)
    have hitems := lexes_writeItems hl hbody hend
      (ends_lineBreak layout n (ends_cons (by decide) _))
    simpa [tokens, insideList] using
      (hitems.blanks (hl.lineBreak (n + 1))).mark (c := '[') rfl rfl
  | .map [], _, _, _, _, h, ht, _ => by
    cases h
    exact (ht.mark rfl rfl).mark rfl rfl
  | .map ((k, v) :: entries), n, _, rest, ts, h, ht, _ => by
    obtain ⟨body, hbody, h⟩ := bind_eq_ok.1 h
    cases h
    have hend : Lexes (layout.lineBreak n ++ '}' :: rest) (.mapClose :: ts) :=
      (ht.mark rfl rfl).blanks (hl.lineBreak n)
    have hentries := lexes_writeEntries hl hbody hend
      (ends_lineBreak layout n (ends_cons (by decide) _))
    simpa [tokens, insideMap] using
      (hentries.blanks (hl.lineBreak (n + 1))).mark (c := '{') rfl rfl
  | .bytes _, _, _, _, _, h, _, _ => nomatch h
  | .role _, _, _, _, _, h, _, _ => nomatch h
  | .position _ _, _, _, _, _, h, _, _ => nomatch h
  | .event _ _ _, _, _, _, _, h, _, _ => nomatch h
  | .node _, _, _, _, _, h, _, _ => nomatch h
  | .handle _, _, _, _, _, h, _, _ => nomatch h
  | .thing _ _, _, _, _, _, h, _, _ => nomatch h

theorem lexes_writeItems (hl : layout.Blank) : ∀ {items : List Datum} {n : Nat}
    {body tail : List Char} {ts : List Token}, writeItems layout n items = .ok body →
      Lexes tail (.listClose :: ts) → Ends tail → Lexes (body ++ tail) (insideList items ++ ts)
  | [], _, _, _, _, h, ht, _ => by
    cases h
    exact ht
  | [d], _, _, _, _, h, ht, hr => by
    obtain ⟨head, hhead, h⟩ := bind_eq_ok.1 h
    cases h
    simpa [insideList, itemTokens] using lexes_write hl hhead ht hr
  | d :: d' :: items, n, _, _, _, h, ht, hr => by
    obtain ⟨head, hhead, h⟩ := bind_eq_ok.1 h
    obtain ⟨more, hmore, h⟩ := bind_eq_ok.1 h
    cases h
    have hrest := hl.lexes_comma (lexes_writeItems hl hmore ht hr) n
    simpa [insideList, itemTokens] using lexes_write hl hhead hrest (ends_comma layout n _)

theorem lexes_writeEntries (hl : layout.Blank) : ∀ {entries : List (Datum × Datum)} {n : Nat}
    {body tail : List Char} {ts : List Token}, writeEntries layout n entries = .ok body →
      Lexes tail (.mapClose :: ts) → Ends tail → Lexes (body ++ tail) (insideMap entries ++ ts)
  | [], _, _, _, _, h, ht, _ => by
    cases h
    exact ht
  | [(k, v)], _, _, _, _, h, ht, hr => by
    obtain ⟨key, hkey, h⟩ := bind_eq_ok.1 h
    obtain ⟨value, hvalue, h⟩ := bind_eq_ok.1 h
    cases h
    have hname : key = (keyName k).toList := by simp [keyName, hkey]
    simpa [hname, insideMap, entryTokens] using
      lexes_colon (lexes_write hl hvalue ht hr) (keyName k)
  | (k, v) :: e :: entries, n, _, _, _, h, ht, hr => by
    obtain ⟨key, hkey, h⟩ := bind_eq_ok.1 h
    obtain ⟨value, hvalue, h⟩ := bind_eq_ok.1 h
    obtain ⟨more, hmore, h⟩ := bind_eq_ok.1 h
    cases h
    have hname : key = (keyName k).toList := by simp [keyName, hkey]
    have hrest := hl.lexes_comma (lexes_writeEntries hl hmore ht hr) n
    simpa [hname, insideMap, entryTokens] using
      lexes_colon (lexes_write hl hvalue hrest (ends_comma layout n _)) (keyName k)

end

/-- The tokens of what is written. -/
theorem lex_write (hl : layout.Blank) {d : Datum} {n : Nat} {cs : List Char}
    (h : write layout n d = .ok cs) : lex cs = some (tokens d) := by
  have hlex := lexes_write hl h lexes_nil ends_nil
  rw [List.append_nil, List.append_nil] at hlex
  exact hlex _ (Nat.lt_succ_self _)

end Json

end TokenNet
