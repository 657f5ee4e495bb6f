import DeepseekScience.Text

/-! What a call into the database can fail with. -/
namespace DeepseekScience.Db

inductive DbError where
  | notFound (message : Text)
  | conflict (message : Text)
  | other (message : Text)
  /-- A statement that SQLite itself rejects. -/
  | sqlite
  deriving DecidableEq

end DeepseekScience.Db
