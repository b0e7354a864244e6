import FilterPushdown.Number.Text
import FilterPushdown.Proofs.Number.Digits
import FilterPushdown.Proofs.Sql.Spelling

/-!
The written form of finite numbers is a number of SQL.  The shortest decimal has at least one
digit; with a digit to begin with, every layout is a whole part, a fraction after a point, and an
exponent with its sign, in this order.
-/

namespace FilterPushdown

/-! ## Digits, points and exponents in a row -/

namespace Sql.NumberPhase

/-- Digits bring a number from the phase before them to the phase of digits. -/
theorem run?_digits {before inside : NumberPhase}
    (enters : ∀ c, c.isDigit = true → before.next? c = some inside)
    (stays : ∀ c, c.isDigit = true → inside.next? c = some inside) {text : List Char}
    (nonempty : text ≠ []) (digits : ∀ c ∈ text, c.isDigit = true) :
    before.run? text = some inside := by
  induction text generalizing before with
  | nil => exact absurd rfl nonempty
  | cons c text ih =>
    rw [run?, enters c (digits c List.mem_cons_self), Option.bind_some]
    by_cases last : text = []
    · rw [last, run?]
    · exact ih stays last fun d member => digits d (List.mem_cons_of_mem c member)

/-- A phase in which digits begin the whole part. -/
def Begins (phase : NumberPhase) : Prop := ∀ c, c.isDigit = true → phase.next? c = some .whole

theorem begins_start : start.Begins := by
  intro c digit
  have notMinus : c ≠ '-' := ne_of_class digit rfl
  rw [next?, if_neg notMinus, if_pos digit]

theorem begins_sign : sign.Begins := fun _ digit => if_pos digit

variable {phase : NumberPhase} {digits : List Char}

theorem run?_whole (begins : phase.Begins) (nonempty : digits ≠ [])
    (all : ∀ c ∈ digits, c.isDigit = true) : phase.run? digits = some .whole :=
  run?_digits begins (fun _ digit => if_pos digit) nonempty all

theorem run?_fraction (nonempty : digits ≠ []) (all : ∀ c ∈ digits, c.isDigit = true) :
    whole.run? ('.' :: digits) = some .fraction := by
  have enters : ∀ c, c.isDigit = true → point.next? c = some .fraction :=
    fun _ digit => if_pos digit
  have stays : ∀ c, c.isDigit = true → fraction.next? c = some .fraction :=
    fun _ digit => if_pos digit
  exact run?_digits enters stays nonempty all

theorem run?_exponent (n : Nat) : exponentSign.run? (Nat.toDigits 10 n) = some .exponent := by
  have enters : ∀ c, c.isDigit = true → exponentSign.next? c = some .exponent :=
    fun _ digit => if_pos digit
  have stays : ∀ c, c.isDigit = true → exponent.next? c = some .exponent :=
    fun _ digit => if_pos digit
  exact run?_digits enters stays Nat.toDigits_ne_nil fun _ inside =>
    Nat.isDigit_of_mem_toDigits (by decide) (by decide) inside

/-- An exponent may follow a whole part as well as a fraction. -/
theorem run?_exponentText {before : NumberPhase} (marks : before.next? 'e' = some .mark)
    (exponent : Int) : before.run? ('e' :: Number.exponentText exponent) = some .exponent := by
  unfold Number.exponentText
  rw [run?, marks, Option.bind_some, run?]
  split
  · exact run?_exponent exponent.natAbs
  · exact run?_exponent exponent.natAbs

/-! ## Every layout is a number -/

theorem run?_write (begins : phase.Begins) (layout : Number.Layout) {decimal : Number.Decimal}
    (nonempty : decimal.digits ≠ []) (all : ∀ c ∈ decimal.digits, c.isDigit = true) :
    ∃ last, phase.run? (layout.write decimal) = some last ∧ last.complete = true := by
  have zeros {count : Nat} : ∀ c ∈ List.replicate count '0', c.isDigit = true := by
    intro c member
    rw [List.eq_of_mem_replicate member]
    rfl
  have taken {count : Nat} : ∀ c ∈ decimal.digits.take count, c.isDigit = true :=
    fun c member => all c (List.mem_of_mem_take member)
  have dropped {count : Nat} : ∀ c ∈ decimal.digits.drop count, c.isDigit = true :=
    fun c member => all c (List.mem_of_mem_drop member)
  have positive := List.length_pos_iff.mpr nonempty
  unfold Number.Layout.write
  dsimp only
  split
  · rename_i range
    split
    · refine ⟨.whole, run?_whole begins (List.append_ne_nil_of_left_ne_nil nonempty _) ?_, rfl⟩
      intro c member
      rcases List.mem_append.mp member with member | member
      · exact all c member
      · exact zeros c member
    · rename_i longer
      have before : decimal.digits.take decimal.point.toNat ≠ [] := by
        rw [← List.length_pos_iff, List.length_take]
        omega
      have after : decimal.digits.drop decimal.point.toNat ≠ [] := by
        rw [← List.length_pos_iff, List.length_drop]
        omega
      refine ⟨.fraction, ?_, rfl⟩
      rw [run?_append, run?_whole begins before taken, Option.bind_some,
        run?_fraction after dropped]
  · split
    · have first : phase.run? ['0'] = some .whole := run?_whole begins (by simp) (by simp)
      refine ⟨.fraction, ?_, rfl⟩
      rw [← List.singleton_append, run?_append, first, Option.bind_some]
      apply run?_fraction (List.append_ne_nil_of_right_ne_nil _ nonempty)
      intro c member
      rcases List.mem_append.mp member with member | member
      · exact zeros c member
      · exact all c member
    · have before : decimal.digits.take 1 ≠ [] := by
        rw [← List.length_pos_iff, List.length_take]
        omega
      refine ⟨.exponent, ?_, rfl⟩
      rw [List.append_assoc, run?_append, run?_whole begins before taken, Option.bind_some]
      split
      · exact run?_exponentText rfl _
      · rename_i longer
        have after : decimal.digits.drop 1 ≠ [] := by
          rw [← List.length_pos_iff, List.length_drop]
          omega
        rw [run?_append, run?_fraction after dropped, Option.bind_some]
        exact run?_exponentText rfl _

theorem run?_magnitudeText (begins : phase.Begins) {rank : Nat} (finite : rank < Number.topRank) :
    ∃ last, phase.run? (Number.magnitudeText rank) = some last ∧ last.complete = true := by
  unfold Number.magnitudeText
  by_cases zero : rank = 0
  · rw [if_pos zero]
    exact ⟨.whole, run?_whole begins (by simp) (by simp), rfl⟩
  · rw [if_neg zero, if_neg (Nat.ne_of_lt finite)]
    exact run?_write begins Number.plain (Number.shortest_digits_ne_nil zero) fun _ inside =>
      Number.isDigit_of_mem_shortest inside

/-- The text of a finite number is a number of SQL. -/
theorem accepts_text {x : Number.Double} (finite : x.IsFinite) : Accepts x.text.toList := by
  unfold Number.Double.text
  rw [String.toList_ofList]
  split
  · exact run?_magnitudeText begins_sign finite
  · exact run?_magnitudeText begins_start finite

end Sql.NumberPhase

end FilterPushdown
