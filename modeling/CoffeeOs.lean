import CoffeeOs.Runs
import CoffeeOs.KeyedTable
import CoffeeOs.Requests
import CoffeeOs.Interleaving
import CoffeeOs.Numerals
import CoffeeOs.Calendar
import CoffeeOs.Payload
import CoffeeOs.Schema
import CoffeeOs.Transactions
import CoffeeOs.TransactionSpec
import CoffeeOs.TransactionFrame
import CoffeeOs.Payments
import CoffeeOs.PointOfSale
import CoffeeOs.PaidGate
import CoffeeOs.PaymentLife
import CoffeeOs.SettledPayments
import CoffeeOs.RefundRace
import CoffeeOs.TransactionLife
import CoffeeOs.CompleteRace
import CoffeeOs.InventoryMovements
import CoffeeOs.StockLedger
import CoffeeOs.Discounts
import CoffeeOs.DiscountRules
import CoffeeOs.UsageRace
import CoffeeOs.Orders
import CoffeeOs.OrderNumbers
import CoffeeOs.OrderSequence
import CoffeeOs.OrderLife
import CoffeeOs.OrderRace
import CoffeeOs.OpenShifts
import CoffeeOs.Shifts
import CoffeeOs.ShiftRace
import CoffeeOs.ShiftFigures
import CoffeeOs.CashRegisters
import CoffeeOs.Faults
import CoffeeOs.Recipes
import CoffeeOs.Categories
import CoffeeOs.Products
import CoffeeOs.Modifiers
import CoffeeOs.InventoryItems
import CoffeeOs.Suppliers
import CoffeeOs.Names
import CoffeeOs.Catalog
import CoffeeOs.RecipeItems
import CoffeeOs.LostCalls
import CoffeeOs.CashCounts
import CoffeeOs.ExpenseRace
import CoffeeOs.References
import CoffeeOs.HardDeletes
import CoffeeOs.SoldProducts
import CoffeeOs.Growth
import CoffeeOs.DiscountAmounts
import CoffeeOs.DiscountPeriods
import CoffeeOs.Loops
import CoffeeOs.RecipeCosts
import CoffeeOs.TransactionTotals
import CoffeeOs.TransactionDiscounts
import CoffeeOs.CashSummaries
import CoffeeOs.RepeatedProducts
import CoffeeOs.Replacements
import CoffeeOs.Taxes
import CoffeeOs.SortOrders
import CoffeeOs.Paging
import CoffeeOs.Listing
import CoffeeOs.Pages
import CoffeeOs.Codes
import CoffeeOs.Belongings
import CoffeeOs.Services
import CoffeeOs.Integrity
import CoffeeOs.Footprints
import CoffeeOs.Rows
import CoffeeOs.LookThenStore
import CoffeeOs.NameRace
import CoffeeOs.MoveRace
import CoffeeOs.TaxAmounts
import CoffeeOs.Lookups
import CoffeeOs.ModifierLists
import CoffeeOs.Scripts
import CoffeeOs.ReplacementRace
import CoffeeOs.OrderNumberRace
import CoffeeOs.OrphanRace
import CoffeeOs.RelyGuarantee
import CoffeeOs.WellFormed
import CoffeeOs.Permanence
import CoffeeOs.Terms
import CoffeeOs.AnyOrder
import CoffeeOs.Figures
import CoffeeOs.Records
import CoffeeOs.Serializability
import CoffeeOs.Overlaps
