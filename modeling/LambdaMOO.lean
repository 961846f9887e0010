import LambdaMOO.Decompile.Correct
import LambdaMOO.Decompile.Skip
import LambdaMOO.Tasks.InputRefine
import LambdaMOO.Tasks.Accounting
import LambdaMOO.Tasks.Delay
import LambdaMOO.Network.OutputRuns
import LambdaMOO.Network.PullInput
import LambdaMOO.Network.Players
import LambdaMOO.VM.Result
import LambdaMOO.Db.Retry
import LambdaMOO.VM.Scatter
import LambdaMOO.Db.WaifWalks
import LambdaMOO.Parser.LexerSpec
import LambdaMOO.Parser.ReadExpr
import LambdaMOO.Numbers.Power
import LambdaMOO.Numbers.Shift
import LambdaMOO.Numbers.MulAddMod
import LambdaMOO.Unicode.Index
import LambdaMOO.Unicode.Stream
import LambdaMOO.VM.Range
import LambdaMOO.Lists.Insert
import LambdaMOO.Lists.PatternCache
import LambdaMOO.Lists.Sets
import LambdaMOO.Strings.Search
import LambdaMOO.Strings.Binary
import LambdaMOO.Strings.Md5
import LambdaMOO.Db.Intern
import LambdaMOO.Db.VerbNames
import LambdaMOO.Numbers.Random
import LambdaMOO.Db.HierarchyCheck
import LambdaMOO.Db.Properties
import LambdaMOO.Db.OperationsSpec
import LambdaMOO.Db.Recycle
import LambdaMOO.Db.LostLists
import LambdaMOO.Db.Create
import LambdaMOO.Db.WaifBits
import LambdaMOO.Db.WaifMap
import LambdaMOO.Db.ScxnfSpec
import LambdaMOO.Strings.Match
import LambdaMOO.Strings.TranslatePcre
import LambdaMOO.Commands.Command
