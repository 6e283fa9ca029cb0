import TdExport.Core.Str
import TdExport.Core.Loop
import TdExport.Core.Counter
import TdExport.Model.Basic
import TdExport.Model.Lowercase
import TdExport.Model.Numbered
import TdExport.Config.Basic
import TdExport.Config.Properties
import TdExport.Core.Escape
import TdExport.Core.Fallible
import TdExport.Core.Forest
import TdExport.Core.Grid
import TdExport.Core.Groups
import TdExport.Core.Maxima
import TdExport.Core.Once
import TdExport.Core.Parted
import TdExport.Core.Quoted
import TdExport.Core.Order
import TdExport.Core.SortedMap
import TdExport.Core.StableSort
import TdExport.Db.MySql.Defaults
import TdExport.Db.MySql.Definer
import TdExport.Db.MySql.Grouping
import TdExport.Db.MySql.Unescape
import TdExport.Db.Postgres.ColumnKeys
import TdExport.Db.Postgres.Ddl.Basic
import TdExport.Db.Postgres.Ddl.Rendered
import TdExport.Db.Postgres.Ddl.Ledger
import TdExport.Db.Postgres.Ddl.Safety
import TdExport.Db.Postgres.Ddl.ViewDdl
import TdExport.Db.Postgres.SchemaDdl.Basic
import TdExport.Db.Postgres.SchemaDdl.Kahn
import TdExport.Db.Postgres.SchemaDdl.Placement
import TdExport.Db.Postgres.SchemaDdl.Topological
import TdExport.Db.Postgres.FreeText
import TdExport.Db.Postgres.Parse.Exclude
import TdExport.Db.Postgres.Parse.Method
import TdExport.Db.Postgres.Parse.OnOnly
import TdExport.Db.Postgres.Partition.Order
import TdExport.Db.RowHelpers
import TdExport.Identifier.Properties
import TdExport.Export.Excel.Layout
import TdExport.Export.Excel.Sheet
import TdExport.Export.Excel.SheetNames
import TdExport.Export.Markdown.Basic
import TdExport.Export.Markdown.Fence
import TdExport.Export.Markdown.Rows
import TdExport.Export.Markdown.Structure
import TdExport.Export.Sql.Blanking
import TdExport.Export.Sql.Comments
import TdExport.Export.Sql.Phantoms
import TdExport.Export.Sql.Phases
import TdExport.Export.Sql.Terminator
import TdExport.Core.FileSystem
import TdExport.Core.FirstFit
import TdExport.Export.Filename.Basic
import TdExport.Export.Filename.Reexport
import TdExport.Export.Filename.Safe
import TdExport.Export.Filename.Unique
import TdExport.Export.SchemaFiles.Basic
import TdExport.Export.SchemaFiles.Distinct
import TdExport.Core.Disk
import TdExport.Db.Client
import TdExport.Export.SchemaFiles.OnDisk
import TdExport.Export.SchemaFiles.Discerned
import TdExport.Export.Exporters
import TdExport.Run.Warnings
import TdExport.Run.Enrich
import TdExport.Run.Basic
import TdExport.Run.Schedule
import TdExport.Run.SqlFiles
import TdExport.Run.Strict
import TdExport.Run.Workbook
import TdExport.Db.Postgres.Fetch.Basic
import TdExport.Db.Postgres.Fetch.Objects
import TdExport.Db.Postgres.Fetch.TableDdl
import TdExport.Db.Postgres.Fetch.SchemaDdl
import TdExport.Db.Postgres.Fetch.Isolation
import TdExport.Db.Postgres.Fetch.Catalog
import TdExport.Db.Postgres.Fetch.Rows
import TdExport.Db.Postgres.Fetch.Parts
import TdExport.Db.Postgres.Client
import TdExport.Db.Postgres.Fetched
import TdExport.Db.MySql.Fetch
import TdExport.Db.MySql.Fetched
