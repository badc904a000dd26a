import DbCoursework.Runs
import DbCoursework.ItemView
import DbCoursework.SettingsArray
import DbCoursework.ServerManager
import DbCoursework.ServerStore
import DbCoursework.ServerCache
import DbCoursework.SettingsDialog
import DbCoursework.ListEdit
import DbCoursework.ServerEdits
import DbCoursework.Separated
import DbCoursework.ServerAddress
import DbCoursework.FormButtons
import DbCoursework.RowLookup
import DbCoursework.RowIdentity
import DbCoursework.EditSession
import DbCoursework.Closing
import DbCoursework.Conninfo
import DbCoursework.ConnectionString
import DbCoursework.Futures
import DbCoursework.Connections
import DbCoursework.Attempts
import DbCoursework.Sessions
import DbCoursework.Transactions
import DbCoursework.TransactionCalls
import DbCoursework.TransactionSteps
import DbCoursework.CommandPlaces
import DbCoursework.CommitOutcome
import DbCoursework.Cursor
import DbCoursework.StatelessCursor
import DbCoursework.CursorStream
import DbCoursework.Encodings
import DbCoursework.Glyphs
import DbCoursework.GlyphTables
import DbCoursework.GlyphText
import DbCoursework.QuotedText
import DbCoursework.ArrayText
import DbCoursework.ArrayWriting
import DbCoursework.CopyRows
import DbCoursework.CopyTables
import DbCoursework.PipelineResults
