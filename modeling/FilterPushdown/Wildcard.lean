import FilterPushdown.Text.Replace

/-!
Wildcard patterns, in which a star stands for any text and a question mark for any one character,
and their form as SQL patterns.
-/

namespace FilterPushdown.Wildcard

/-- `wildcardToSqlPattern`: the SQL pattern of a wildcard pattern.  What SQL would take for a
wildcard is escaped first, then the wildcards are exchanged. -/
def toSqlPattern (pattern : List Char) : List Char :=
  Text.replaceLetter '?' ['_']
    (Text.replaceLetter '*' ['%']
      (Text.replaceLetter '_' ['\\', '_']
        (Text.replaceLetter '%' ['\\', '%'] pattern)))

/-- The SQL pattern of a wildcard pattern. -/
def sqlPattern (pattern : String) : String := String.ofList (toSqlPattern pattern.toList)

end FilterPushdown.Wildcard
